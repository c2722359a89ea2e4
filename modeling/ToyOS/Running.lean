import ToyOS.FrameMemory
import ToyOS.Traps

namespace ToyOS.Running
open Function UserSpace Tlb Coremap SpaceFrames Traps FrameMemory

-- The fields of a PT_LOAD program header that load_elf uses.
structure Phdr where
  vaddr : BitVec 32
  memsz : BitVec 32
  filesz : BitVec 32

def Phdr.stores (ph : Phdr) : List Nat :=
  (List.range (min ph.filesz.toNat ph.memsz.toNat)).map (ph.vaddr.toNat+·)

-- A program to run: its PT_LOAD segments, its entry point, and strlen of the arguments in the order of their copies.
structure Image where
  segments : List Phdr
  entry : BitVec 32
  arguments : List Nat

def Image.stores (image : Image) : List Nat := image.segments.flatMap Phdr.stores

def block (start : BitVec 32) (length : Nat) : List Nat :=
  (List.range length).map fun i => (start+BitVec.ofNat 32 i).toNat

def pushStrings : BitVec 32 → List Nat → List Nat × BitVec 32
  | stackptr,[] => ([],stackptr)
  | stackptr,len :: rest =>
    let start := stackptr-BitVec.ofNat 32 (roundup (len+1) 4)
    let (stores,final) := pushStrings start rest
    (block start (len+1)++stores,final)

def pushPointers : BitVec 32 → Nat → List Nat × BitVec 32
  | stackptr,0 => ([],stackptr)
  | stackptr,count+1 =>
    let start := stackptr-4
    let (stores,final) := pushPointers start count
    (block start 4++stores,final)

def pushArguments (lens : List Nat) : List Nat × BitVec 32 :=
  let (strings,stackptr) := pushStrings (BitVec.ofNat 32 userstack) lens
  let (pointers,argv) := pushPointers stackptr (lens.length+1)
  (strings++pointers,argv)

def Image.frame (image : Image) : Trapframe :=
  let argv := (pushArguments image.arguments).2
  enterNewProcess (BitVec.ofNat 32 image.arguments.length) argv (argv-argv % 8) image.entry

-- Where the only thread of a process is. While load_elf fills the new address space or arguments are copied out, with
-- the stores still to be made.
inductive Point where
  | program
  | user
  | switched (image : Image)
  | defining (image : Image) (left : List Phdr)
  | filling (image : Image) (left : List Nat)
  | stopped
  | arguments (image : Image) (left : List Nat)
  | restoring
  | discarding
  | starting (tf : Trapframe)
  | forking (tf : Trapframe) (child : Nat)
  | exited

-- `space` is p_addrspace, `saved` the other address space that sys_execv has in hand: the old one, or the abandoned one
-- once the old one is back. `entry` holds the registers of the last entry into user mode. `forked` and `loads` are
-- history: whether sys_fork made the process, and how many loads it has completed.
structure Proc where
  space : Option Nat
  saved : Option Nat
  loaded : Bool
  point : Point
  entry : Trapframe
  forked : Bool
  loads : Nat

-- What the thread of one process works on.
structure Local where
  frames : FrameOwners.State
  memory : Memory
  tlb : Slots
  proc : Proc

inductive Act where
  | createSpace (image : Image)
  | activate
  | defineRegion
  | prepareLoad (junk : Segment → Nat → Nat) (scrap : Memory)
  | write (vaddr : Nat) (byte : UInt8)
  | completeLoad
  | fail
  | discard
  | enterNewProcess
  | enterForkedProcess
  | forkReturns

def asActivate (space : Option Nat) (tlb : Slots) : Slots :=
  if space.isSome then flushed else tlb

def touches (point : Point) (vaddr : Nat) : Bool :=
  match point with
  | .user => true
  | .filling _ (next :: _) => next == vaddr && vaddr < userspacetop
  | .arguments _ (next :: _) => next == vaddr && vaddr < userspacetop
  | _ => false

def afterStore : Point → Point
  | .filling image (_ :: rest) => .filling image rest
  | .arguments image (_ :: rest) => .arguments image rest
  | point => point

def writeThrough (tlb : Slots) (memory : Memory) (vaddr : Nat) (byte : UInt8) : Option Memory :=
  match lookup tlb (pageFrame vaddr) with
  | none => none
  | some i =>
    if (tlb i).dirty then some (update memory ((tlb i).ppage+vaddr % pageSize) byte) else none

def Local.setPoint (l : Local) (point : Point) : Local := {l with proc := {l.proc with point}}

def act (r : Ram) (l : Local) : Act → Option Local
  | .createSpace image =>
    let next := {l with
      frames := l.frames.addSpace (.defined asCreate)
      proc := {l.proc with
        space := some l.frames.nextSpace,saved := l.proc.space,point := .switched image}}
    match l.proc.point with
    | .program => some next
    | .user => some next
    | _ => none
  | .activate => match l.proc.point with
      | .switched image => some {l.setPoint (.defining image image.segments) with
          tlb := asActivate l.proc.space l.tlb}
      | .restoring => some {l.setPoint .discarding with tlb := asActivate l.proc.space l.tlb}
      | _ => none
  | .defineRegion => match l.proc.point,l.proc.space with
      | .defining image (ph :: rest),some i => match l.frames.spaces i with
        | .defined as => match asDefineRegion as ph.vaddr.toNat ph.memsz.toNat with
          | .ok as => some {l.setPoint (.defining image rest) with
              frames := l.frames.setSpace i (.defined as)}
          | .error _ => none
        | _ => none
      | _,_ => none
  | .prepareLoad junk scrap => match l.proc.point,l.proc.space with
      | .defining image [],some i => match l.frames.spaces i with
        | .defined as => match asPrepareLoad r junk l.frames.coremap as with
          | none => none
          | some (.ok _ load) => some {l.setPoint (.filling image image.stores) with
              frames := {l.frames.setSpace i (.prepared load.space) with coremap := load.coremap}
              memory := asZeroRegions load.space l.memory}
          | some (.error _ load) => some {l.setPoint .stopped with
              frames := {l.frames.setSpace i (.failed load.space) with coremap := load.coremap}
              memory := scrapped r l.frames.coremap scrap l.memory}
        | _ => none
      | _,_ => none
  | .write vaddr byte =>
    if touches l.proc.point vaddr then
      (writeThrough l.tlb l.memory vaddr byte).map fun memory =>
        {l.setPoint (afterStore l.proc.point) with memory}
    else none
  | .completeLoad => match l.proc.point with
      | .filling image [] => some {l with
          tlb := asActivate l.proc.space l.tlb
          proc := {l.proc with
            loaded := true,loads := l.proc.loads+1
            point := .arguments image (pushArguments image.arguments).1}}
      | _ => none
  | .fail =>
    let next := fun old => {l with
      proc := {l.proc with space := some old,saved := l.proc.space,point := .restoring}}
    match l.proc.point,l.proc.saved with
    | .defining _ _,some old => some (next old)
    | .filling _ _,some old => some (next old)
    | .arguments _ _,some old => some (next old)
    | .stopped,some old => some (next old)
    | _,_ => none
  | .discard => match l.proc.point,l.proc.saved with
      | .discarding,some new => (FrameOwners.step r l.frames (.destroy new)).map fun frames =>
        {l with frames,proc := {l.proc with saved := none,point := .user}}
      | _,_ => none
  | .enterNewProcess => match l.proc.point,l.proc.saved with
      | .arguments image [],none => some {l with
          proc := {l.proc with point := .user,entry := image.frame}}
      | .arguments image [],some old => (FrameOwners.step r l.frames (.destroy old)).map fun frames =>
        {l with frames,proc := {l.proc with saved := none,point := .user,entry := image.frame}}
      | _,_ => none
  | .enterForkedProcess => match l.proc.point with
      | .starting tf => some {l with
          tlb := asActivate l.proc.space l.tlb
          proc := {l.proc with point := .user,entry := forkedFrame tf}}
      | _ => none
  | .forkReturns => match l.proc.point with
      | .forking tf child => some {l with proc := {l.proc with
          point := .user,entry := syscallReturn tf (.ok (BitVec.ofNat 32 child))}}
      | _ => none

-- The whole system. `current` is the process of the running thread, none for a kernel thread, and `procs` has one
-- thread for every process.
structure State where
  frames : FrameOwners.State
  memory : Memory
  tlb : Slots
  procs : Nat → Option Proc
  current : Option Nat

def initial (r : Ram) (memory : Memory) (tlb : Slots) : State :=
  ⟨FrameOwners.initial r,memory,tlb,fun _ => none,none⟩

def newProgram : Proc := ⟨none,none,false,.program,fun _ => 0,false,0⟩

def newChild (space : Nat) (tf : Trapframe) : Proc :=
  ⟨some space,none,false,.starting tf,fun _ => 0,true,0⟩

inductive Event where
  | act (a : Act)
  | trap (iskern badfaultfunc : Bool) (random : Fin numTlb) (code : ExCode) (vaddr : Nat)
  | exit
  | fork (tf : Trapframe) (junk : Segment → Nat → Nat) (child : Nat)
  | abandonFork (junk : Segment → Nat → Nat)
  | launch (k : Nat)
  | dispatch (next : Option Nat)
  | reap (k : Nat)
  | allocKernel (npages : Nat)
  | freeKernel (ticket : Nat)

def State.at (s : State) (p : Proc) : Local := ⟨s.frames,s.memory,s.tlb,p⟩

def State.put (s : State) (k : Nat) (l : Local) : State :=
  {s with frames := l.frames,memory := l.memory,tlb := l.tlb,procs := update s.procs k (some l.proc)}

def spaceOf (frames : FrameOwners.State) (space : Option Nat) : Option AddrSpace :=
  match space with
  | none => none
  | some i => match frames.spaces i with
    | .defined as => some as
    | .prepared as => some as
    | .failed as => some as
    | _ => none

def sysExit (r : Ram) (s : State) (k : Nat) (p : Proc) : Option State :=
  match p.space with
  | none => none
  | some i => (FrameOwners.step r s.frames (.destroy i)).map fun frames => {s with
      frames
      procs := update s.procs k (some {p with space := none,saved := none,point := .exited})
      current := none}

def copySpace (r : Ram) (s : State) (p : Proc) (junk : Segment → Nat → Nat) :
    Option (FrameOwners.State × Memory) :=
  match spaceOf s.frames p.space with
  | none => none
  | some old => match asCopy r junk s.frames.coremap old with
    | some (coremap,.ok new) => some ({s.frames.addSpace (.prepared new) with coremap},
        copyRegions new old (asZeroRegions new s.memory))
    | _ => none

def State.running (s : State) : Option (Nat × Proc) :=
  match s.current with
  | none => none
  | some k => match s.procs k with
    | none => none
    | some p => some (k,p)

def isUser : Point → Bool
  | .user => true
  | _ => false

def isExited : Point → Bool
  | .exited => true
  | _ => false

def step (r : Ram) (s : State) : Event → Option State
  | .act a => match s.running with
      | none => none
      | some (k,p) => (act r (s.at p) a).map (s.put k)
  | .trap iskern badfaultfunc random code vaddr => match s.running with
      | none => none
      | some (k,p) =>
        if touches p.point vaddr && (iskern || isUser p.point) && raises s.tlb code vaddr then
          match mipsTrap (spaceOf s.frames p.space) p.loaded s.tlb random iskern badfaultfunc
              code vaddr with
          | .retried tlb => some {s with tlb}
          | .copyfail => some s
          | .serviced => some s
          | .exits => sysExit r s k p
          | .panics => none
        else none
  | .exit => match s.running with
      | none => none
      | some (k,p) => if isUser p.point then sysExit r s k p else none
  | .fork tf junk child => match s.running with
      | none => none
      | some (k,p) =>
        if isUser p.point && (s.procs child).isNone then
          (copySpace r s p junk).map fun copied => {s with
            frames := copied.1,memory := copied.2
            procs := update (update s.procs k (some {p with point := .forking tf child})) child
              (some (newChild s.frames.nextSpace tf))}
        else none
  | .abandonFork junk => match s.running with
      | none => none
      | some (_,p) =>
        if isUser p.point then
          (copySpace r s p junk).map fun copied => {s with frames := copied.1,memory := copied.2}
        else none
  | .launch k =>
    if s.current.isNone && (s.procs k).isNone then
      some {s with procs := update s.procs k (some newProgram)}
    else none
  | .dispatch none => some {s with current := none}
  | .dispatch (some k) => match s.procs k with
      | none => none
      | some p =>
        if isExited p.point then none
        else some {s with current := some k,tlb := asActivate p.space s.tlb}
  | .reap k => match s.procs k with
      | none => none
      | some p => if isExited p.point then some {s with procs := update s.procs k none} else none
  | .allocKernel npages => (FrameOwners.step r s.frames (.allocKernel npages)).map fun frames =>
    {s with frames}
  | .freeKernel ticket => (FrameOwners.step r s.frames (.freeKernel ticket)).map fun frames =>
    {s with frames}

def Reached (r : Ram) (memory : Memory) (tlb : Slots) (s : State) : Prop :=
  Transition.Reached (step r) Transition.Free (initial r memory tlb) s

def build (image : Image) (junk : Segment → Nat → Nat) (scrap : Memory) : List Act :=
  [.createSpace image,.activate]++List.replicate image.segments.length .defineRegion++
  [.prepareLoad junk scrap]

def tinyImage : Image := ⟨[⟨0x400000,4096,2⟩,⟨0x10000000,4096,0⟩],0x400000,[]⟩
def slot : Fin numTlb := ⟨0,by decide⟩
def miss (vaddr : Nat) : Event := .trap true true slot .tlbs vaddr
def poke (vaddr : Nat) : Event := .act (.write vaddr 7)

def startTiny : List Event :=
  [.launch 2,.dispatch (some 2)]++(build tinyImage (fun _ _ => 0) fun _ => 0).map .act++
  [miss 0x400000,poke 0x400000,poke 0x400001,.act .completeLoad,
   miss 0x7ffffffc,poke 0x7ffffffc,poke 0x7ffffffd,poke 0x7ffffffe,poke 0x7fffffff,
   .act .enterNewProcess]

abbrev forkRun := Transition.run (step FrameOwners.forkRam) (initial FrameOwners.forkRam (fun _ => 0) flushed)

def forkTiny : List Event :=
  [.fork (fun _ => 0) (fun _ _ => 0) 3,.act .forkReturns,.dispatch (some 3),
   .act .enterForkedProcess]
end ToyOS.Running
