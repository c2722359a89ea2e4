import ToyOS.KernelHeap
import ToyOS.ForkImage

namespace ToyOS.ExecFailure
open Function UserSpace Tlb BlockStore Coremap SpaceFrames Traps FrameMemory Running KernelHeap Option List
open FrameOwners (AccountedBy forkRam)
open ForkImage (acts_same)

def argMaxLen : Nat := 1024
def pathMax : Nat := 1024
def nameMax : Nat := 255

-- The arguments of sys_execv: the path, which may be null, and what copyinstr makes of each argument, its length or an
-- error. The path is read without copyin before it is copied.
structure Call where
  program : Option (List Char)
  arguments : List (Except Errno Nat)
  copyError : Option Errno

-- What the file system answers: vfs_open, and VOP_READ for headers and segments. load_elf meets an error before its
-- step `i`, or not.
structure File where
  openError : Option Errno
  segments : List Phdr
  entry : BitVec 32
  content : Nat → UInt8
  headerErrors : Nat → Option Errno
  loadErrors : Nat → Option Errno

-- The choices of kmalloc, of the processor, and what fresh frames hold.
structure Env where
  place : Nat → Place
  spaceSize : Nat
  random : Nat → Fin numTlb
  junk : Segment → Nat → Nat
  scrap : Memory

-- The calling thread, with the kernel heap.
structure Caller where
  heap : Heap
  memory : Memory
  tlb : Slots
  proc : Proc

def Caller.thread (c : Caller) : Local := ⟨c.heap.frames,c.memory,c.tlb,c.proc⟩

def Caller.resume (c : Caller) (l : Local) : Caller :=
  ⟨{c.heap with frames := l.frames},l.memory,l.tlb,l.proc⟩

def tooBig (path : List Char) : Bool :=
  if '/' ∈ path then
    pathMax < path.length || nameMax < (path.reverse.takeWhile (· ≠ '/')).length
  else nameMax < path.length

def firstError : List (Except Errno Nat) → Nat → Option (Nat × Errno)
  | [],_ => none
  | .ok _ :: rest,i => firstError rest (i+1)
  | .error errno :: _,i => some (i,errno)

def lengths (arguments : List (Except Errno Nat)) : List Nat :=
  (arguments.filterMap fun a => match a with
    | .ok len => some len
    | .error _ => none).reverse

section
variable (r : Ram) (env : Env)

def get (sz : Nat) (c : Caller) : Caller × Option Nat :=
  match kmalloc r (env.place c.heap.next) sz c.heap with
  | (heap,got) => ({c with heap},got)

def drop (tickets : List Nat) (c : Caller) : Option Caller :=
  (release r tickets c.heap).map fun heap => {c with heap}

def allocBuffers (kargs : Nat) : Nat → List Nat → Caller → Option (Caller × Option (List Nat))
  | 0,got,c => some (c,some got)
  | n+1,got,c => match get r env argMaxLen c with
    | (c,some t) => allocBuffers kargs n (got++[t]) c
    | (c,none) => (drop r (got++[kargs]) c).map fun c => (c,none)

def allocArguments (n : Nat) (c : Caller) : Option (Caller × Option (Nat × List Nat)) :=
  match get r env (4*n) c with
  | (c,none) => some (c,none)
  | (c,some kargs) => (allocBuffers r env kargs n [] c).map fun (c,made) =>
    (c,made.map fun buffers => (kargs,buffers))

def collect (call : Call) (file : File) (c : Caller) : Option (Caller × Except Errno (List Nat)) :=
  match call.program with
  | none => some (c,.error .enoent)
  | some path =>
    if tooBig path then some (c,.error .e2big)
    else match allocArguments r env call.arguments.length c with
      | none => none
      | some (c,none) => some (c,.error .enomem)
      | some (c,some (kargs,buffers)) => match firstError call.arguments 0 with
        | some (i,errno) => (drop r (buffers.take i++[kargs]) c).map fun c => (c,.error errno)
        | none => match get r env (path.length+1) c with
          | (c,none) => (drop r (buffers++[kargs]) c).map fun c => (c,.error .enomem)
          | (c,some kprogram) => match call.copyError with
            | some errno => (drop r (buffers++[kargs]++[kprogram]) c).map fun c => (c,.error errno)
            | none => match file.openError with
              | some errno =>
                (drop r (buffers++[kargs]++[kprogram]) c).map fun c => (c,.error errno)
              | none => (drop r [kprogram] c).map fun c => (c,.ok (buffers++[kargs]))

inductive StoreEnd where
  | stored (l : Local)
  | refused
  | gone

def store (l : Local) (vaddr : Nat) (byte : UInt8) : StoreEnd :=
  let hit (l : Local) : StoreEnd := match act r l (.write vaddr byte) with
    | some l => .stored l
    | none => .gone
  if touches l.proc.point vaddr = false then .refused
  else if raises l.tlb .tlbs vaddr then
    match mipsTrap (spaceOf l.frames l.proc.space) l.proc.loaded l.tlb (env.random vaddr) true true
        .tlbs vaddr with
    | .retried tlb => hit {l with tlb}
    | .copyfail => .refused
    | _ => .gone
  else hit l

def storeLoop (content : Nat → UInt8) (errors : Nat → Option Errno) :
    Nat → List Nat → Local → Option (Local × Option Errno)
  | i,[],l => some (l,errors i)
  | i,vaddr :: rest,l => match errors i with
    | some errno => some (l,some errno)
    | none => match store r env l vaddr (content vaddr) with
      | .stored l => storeLoop content errors (i+1) rest l
      | .refused => some (l,some .efault)
      | .gone => none

def defineLoop (errors : Nat → Option Errno) : Nat → List Phdr → Local → Option (Local × Option Errno)
  | i,[],l => some (l,errors i)
  | i,ph :: rest,l => match errors i with
    | some errno => some (l,some errno)
    | none => match spaceOf l.frames l.proc.space with
      | none => none
      | some as => match asDefineRegion as ph.vaddr.toNat ph.memsz.toNat with
        | .error errno => some (l,some errno)
        | .ok _ => (act r l .defineRegion).bind (defineLoop errors (i+1) rest)

def loadElf (file : File) (image : Image) (l : Local) : Option (Local × Except Errno Unit) :=
  match defineLoop r file.headerErrors 0 image.segments l with
  | none => none
  | some (l,some errno) => some (l,.error errno)
  | some (l,none) => match act r l (.prepareLoad env.junk env.scrap) with
    | none => none
    | some l => match l.proc.point with
      | .filling _ _ => match storeLoop r env file.content file.loadErrors 0 image.stores l with
        | none => none
        | some (l,some errno) => some (l,.error errno)
        | some (l,none) => (act r l .completeLoad).map fun l => (l,.ok ())
      | _ => some (l,.error .enomem)

def advance (acts : List Act) (c : Caller) : Option Caller :=
  (Transition.run (act r) c.thread acts).map c.resume

def abandon (tickets : List Nat) (as : Nat) (errno : Errno) (c : Caller) :
    Option (Caller × Except Errno Unit) :=
  (drop r tickets c).bind fun c => (advance r [.fail,.activate,.discard] c).bind fun c =>
    (drop r [as] c).map fun c => (c,.error errno)

def imageOf (call : Call) (file : File) : Image :=
  ⟨file.segments,file.entry,lengths call.arguments⟩

def switch (call : Call) (file : File) (c : Caller) :
    Option (Caller × Except Errno (List Nat × Nat)) :=
  match collect r env call file c with
  | none => none
  | some (c,.error errno) => some (c,.error errno)
  | some (c,.ok tickets) => match get r env env.spaceSize c with
    | (c,none) => (drop r tickets c).map fun c => (c,.error .enomem)
    | (c,some as) => (advance r [.createSpace (imageOf call file),.activate] c).map fun c =>
      (c,.ok (tickets,as))

def sysExecv (call : Call) (file : File) (strings : Nat → UInt8) (oldAs : Nat) (c : Caller) :
    Option (Caller × Except Errno Unit) :=
  match switch r env call file c with
  | none => none
  | some (c,.error errno) => some (c,.error errno)
  | some (c,.ok (tickets,as)) => match loadElf r env file (imageOf call file) c.thread with
    | none => none
    | some (l,.error errno) => abandon r tickets as errno (c.resume l)
    | some (l,.ok _) =>
      match storeLoop r env strings (fun _ => none) 0 (pushArguments (lengths call.arguments)).1 l with
      | none => none
      | some (l,some errno) => abandon r tickets as errno (c.resume l)
      | some (l,none) => (drop r tickets (c.resume l)).bind fun c =>
        (advance r [.enterNewProcess] c).bind fun c => (drop r [oldAs] c).map fun c => (c,.ok ())

end

-- The process has its old address space back, pages and bytes; the frames in use and the live allocations are as
-- before.
structure Atomic (c after : Caller) : Prop where
  point : after.proc.point = .user
  space : after.proc.space = c.proc.space
  mappings : ∀ i, c.proc.space = some i → after.heap.frames.spaces i = c.heap.frames.spaces i
  contents : ∀ i as, c.proc.space = some i → c.heap.frames.spaces i = .prepared as →
    Same as c.memory after.memory
  coremap : after.heap.frames.coremap = c.heap.frames.coremap
  live : after.heap.live = c.heap.live

def CopyinFails (r : Ram) (env : Env) (call : Call) (c : Caller) : Prop :=
  (∃ path, call.program = some path ∧ tooBig path = false) ∧
  (∃ after made, allocArguments r env call.arguments.length c = some (after,some made)) ∧
  (firstError call.arguments 0).isSome = true

section
variable {r : Ram} {env : Env} {parts : Nat → Part → Option Block} {c0 c after : Caller}

-- Before the new address space is installed only the heap changes.
structure Collecting (r : Ram) (parts : Nat → Part → Option Block) (c0 : Caller) (got : List Nat)
    (c : Caller) : Prop where
  holding : Holding r parts c0.heap got c.heap
  memory : c.memory = c0.memory
  tlb : c.tlb = c0.tlb
  proc : c.proc = c0.proc
  spaces : c.heap.frames.spaces = c0.heap.frames.spaces
  nextSpace : c.heap.frames.nextSpace = c0.heap.frames.nextSpace

lemma Collecting.perm (coll : Collecting r parts c0 got c) (order : got.Perm other) : Collecting r parts c0 other c :=
  {coll with holding := coll.holding.perm order}

lemma get_collecting (inst : r.Installed) (coll : Collecting r parts c0 got c) (done : get r env sz c = (after,res)) :
    (res = none ∧ Collecting r parts c0 got after) ∨ ∃ t, res = some t ∧ Collecting r parts c0 (t :: got) after := by
  cases did : kmalloc r (env.place c.heap.next) sz c.heap with
  | mk heap gained =>
    rw [get,did] at done
    cases done
    obtain ⟨holding,memory,tlb,proc,spaces,next⟩ := coll
    obtain ⟨sameSpaces,sameNext⟩ := kmalloc_spaces did
    rcases kmalloc_holding inst holding did with ⟨none_,kept,_⟩ | ⟨t,some_,more⟩
    · exact .inl ⟨none_,kept,memory,tlb,proc,sameSpaces.trans spaces,sameNext.trans next⟩
    · exact .inr ⟨t,some_,more,memory,tlb,proc,sameSpaces.trans spaces,sameNext.trans next⟩

lemma drop_collecting (coll : Collecting r parts c0 (tickets++got) c) :
    ∃ after, drop r tickets c = some after ∧ Collecting r parts c0 got after := by
  obtain ⟨holding,memory,tlb,proc,spaces,next⟩ := coll
  obtain ⟨heap,released,left,sameSpaces,sameNext⟩ := release_holding holding
  exact ⟨{c with heap},by rw [drop,released]; rfl,left,memory,tlb,proc,sameSpaces.trans spaces,sameNext.trans next⟩

lemma drop_all (coll : Collecting r parts c0 tickets c) (done : drop r tickets c = some after) :
    Collecting r parts c0 [] after := by
  rw [←append_nil tickets] at coll
  obtain ⟨ne,also,left⟩ := drop_collecting coll
  cases done.symm.trans also
  exact left

lemma allocBuffers_spec (inst : r.Installed) (done : allocBuffers r env kargs n got c = some (after,made))
    (coll : Collecting r parts c0 (got++[kargs]) c) : (made = none ∧ Collecting r parts c0 [] after) ∨
    ∃ buffers, made = some buffers ∧ buffers.length = got.length+n ∧
      Collecting r parts c0 (buffers++[kargs]) after := by
  induction n generalizing got c with
  | zero =>
    cases done
    exact .inr ⟨got,rfl,rfl,coll⟩
  | succ n ih =>
    cases did : get r env argMaxLen c with
    | mk mid gained =>
      rw [allocBuffers,did] at done
      rcases get_collecting inst coll did with ⟨rfl,kept⟩ | ⟨t,rfl,more⟩
      · obtain ⟨final,dropped,eq⟩ := map_eq_some_iff.mp done
        cases eq
        exact .inl ⟨rfl,drop_all kept dropped⟩
      have order : (t :: (got++[kargs])).Perm (got++[t]++[kargs]) := by
        rw [append_assoc]
        exact perm_middle.symm
      rcases ih done (more.perm order) with bad | ⟨buffers,made,length,held⟩
      · exact .inl bad
      refine .inr ⟨buffers,made,?_,held⟩
      rw [length,length_append,length_singleton]
      omega

lemma allocArguments_spec (inst : r.Installed) (coll : Collecting r parts c0 [] c)
    (done : allocArguments r env n c = some (after,made)) : (made = none ∧ Collecting r parts c0 [] after) ∨
    ∃ kargs buffers, made = some (kargs,buffers) ∧ buffers.length = n ∧
      Collecting r parts c0 (buffers++[kargs]) after := by
  cases did : get r env (4*n) c with
  | mk mid gained =>
    rw [allocArguments,did] at done
    rcases get_collecting inst coll did with ⟨rfl,kept⟩ | ⟨kargs,rfl,more⟩
    · cases done
      exact .inl ⟨rfl,kept⟩
    obtain ⟨⟨final,res⟩,allocated,eq⟩ := map_eq_some_iff.mp done
    cases eq
    rcases allocBuffers_spec inst allocated more with
      ⟨rfl,left⟩ | ⟨buffers,rfl,length,held⟩
    · exact .inl ⟨rfl,left⟩
    · exact .inr ⟨kargs,buffers,rfl,by rw [length,length_nil,Nat.zero_add],held⟩

lemma firstError_below (hit : firstError arguments start = some (i,errno)) :
    start ≤ i ∧ i < start+arguments.length := by
  induction arguments generalizing start with
  | nil => cases hit
  | cons argument rest ih =>
    cases argument with
    | error errno =>
      cases hit
      rw [length_cons]
      omega
    | ok len =>
      have bounds := ih hit
      rw [length_cons]
      omega

lemma copyin_leaks (coll : Collecting r parts c0 (buffers++[kargs]) c)
    (lt : i < buffers.length) (done : drop r (buffers.take i++[kargs]) c = some after) :
    ∃ t, c0.heap.live t = none ∧ after.heap.live t ≠ none := by
  obtain ⟨heap,released,rfl⟩ := map_eq_some_iff.mp done
  have among : buffers[i] ∈ buffers++[kargs] := mem_append_left _ (getElem_mem lt)
  have nodup := coll.holding.nodup
  obtain ⟨distinct,_,apart⟩ := nodup_append.mp nodup
  have kept : buffers[i] ∉ buffers.take i++[kargs] := by
    rw [mem_append,not_or]
    constructor
    · intro early
      obtain ⟨j,bound,eq⟩ := mem_take_iff_getElem.mp early
      have same := (List.Nodup.getElem_inj_iff distinct).mp eq
      omega
    · exact fun last => apart _ (getElem_mem lt) _ last rfl
  refine ⟨buffers[i],coll.holding.mine _ among,?_⟩
  have same := release_keeps released kept
  simp only [same]
  exact coll.holding.live _ among

lemma collect_spec (inst : r.Installed) (coll : Collecting r parts c [] c)
    (done : collect r env call file c = some (after,res)) : (CopyinFails r env call c ∧ (∃ errno, res = .error errno) ∧
      ∃ t, c.heap.live t = none ∧ after.heap.live t ≠ none) ∨ (¬ CopyinFails r env call c ∧
      ((∃ errno, res = .error errno) ∧ Collecting r parts c [] after ∨
        ∃ tickets, res = .ok tickets ∧ Collecting r parts c tickets after)) := by
  unfold collect at done
  split at done
  · rename_i null
    cases done
    refine .inr ⟨?_,.inl ⟨⟨_,rfl⟩,coll⟩⟩
    rintro ⟨⟨path,no,_⟩,_⟩
    rw [null] at no
    cases no
  rename_i path given
  split at done
  · rename_i big
    cases done
    refine .inr ⟨?_,.inl ⟨⟨_,rfl⟩,coll⟩⟩
    rintro ⟨⟨ne,also,small⟩,_⟩
    cases given.symm.trans also
    rw [big] at small
    cases small
  rename_i small
  split at done
  · cases done
  · rename_i mid miss
    cases done
    rcases allocArguments_spec inst coll miss with
      ⟨_,kept⟩ | ⟨_,_,no,_⟩
    · refine .inr ⟨?_,.inl ⟨⟨_,rfl⟩,kept⟩⟩
      rintro ⟨_,⟨_,_,allocated⟩,_⟩
      rw [miss] at allocated
      cases allocated
    · cases no
  rename_i mid kargs buffers allocated
  rcases allocArguments_spec inst coll allocated with
    ⟨no,_⟩ | ⟨_,_,eq,length,held⟩
  · cases no
  cases eq
  split at done
  · rename_i i errno hit
    obtain ⟨final,dropped,eq⟩ := map_eq_some_iff.mp done
    cases eq
    have lt := (firstError_below hit).2
    rw [Nat.zero_add,←length] at lt
    refine .inl ⟨⟨⟨path,given,by simpa using small⟩,⟨_,_,allocated⟩,?_⟩,⟨_,rfl⟩,copyin_leaks held lt dropped⟩
    rw [hit]
    rfl
  rename_i fine
  have not_ : ¬ CopyinFails r env call c := by
    rintro ⟨_,_,no⟩
    rw [fine] at no
    cases no
  refine .inr ⟨not_,?_⟩
  split at done
  · rename_i last miss
    obtain ⟨final,dropped,eq⟩ := map_eq_some_iff.mp done
    cases eq
    rcases get_collecting inst held miss with ⟨_,kept⟩ | ⟨_,no,_⟩
    · exact .inl ⟨⟨_,rfl⟩,drop_all kept dropped⟩
    · cases no
  rename_i last kprogram did
  rcases get_collecting inst held did with ⟨no,_⟩ | ⟨_,eq,more⟩
  · cases no
  cases eq
  have order : (kprogram :: (buffers++[kargs])).Perm (buffers++[kargs]++[kprogram]) := (perm_append_singleton ..).symm
  split at done
  · obtain ⟨final,dropped,eq⟩ := map_eq_some_iff.mp done
    cases eq
    exact .inl ⟨⟨_,rfl⟩,drop_all (more.perm order) dropped⟩
  split at done
  · obtain ⟨final,dropped,eq⟩ := map_eq_some_iff.mp done
    cases eq
    exact .inl ⟨⟨_,rfl⟩,drop_all (more.perm order) dropped⟩
  obtain ⟨final,dropped,eq⟩ := map_eq_some_iff.mp done
  cases eq
  obtain ⟨ne,also,left⟩ := drop_collecting (singleton_append.symm ▸ more)
  cases dropped.symm.trans also
  exact .inr ⟨_,rfl,left⟩

lemma Collecting.atomic (coll : Collecting r parts c [] after) (user : c.proc.point = .user)
    (acc : AccountedBy r c.heap.frames parts blocks) : Atomic c after := by
  obtain ⟨live,coremap⟩ := coll.holding.finished acc
  refine ⟨by rw [coll.proc,user],by rw [coll.proc],fun _ _ => by rw [coll.spaces],fun _ _ _ _ => ?_,coremap,live⟩
  rw [coll.memory]
  exact Same.refl _ _

def building : Point → Bool
  | .defining _ _ => true
  | .filling _ _ => true
  | .stopped => true
  | .arguments _ _ => true
  | _ => false

-- While the new address space `n` is built the old one is kept in hand.
structure Building (r : Ram) (parts : Nat → Part → Option Block) (c0 : Caller) (n old : Nat)
    (oldAs : AddrSpace) (got : List Nat) (c : Caller) : Prop where
  valid : LocalValid r c.thread
  holding : ∃ now, Holding r (update parts n now) c0.heap got c.heap
  here : c.proc.space = some n
  saved : c.proc.saved = some old
  other : n ≠ old
  oldSpace : c.heap.frames.spaces old = .prepared oldAs
  same : Same oldAs c0.memory c.memory
  point : building c.proc.point = true

variable {n old : Nat} {oldAs : AddrSpace} {got : List Nat}

lemma LocalValid.respaced (ok : LocalValid r l) (acc : Accounts r frames)
    (spaces : frames.spaces = l.frames.spaces) : LocalValid r {l with frames} := by
  refine ⟨acc,?_,ok.proc.congr fun i _ => by rw [spaces],fun active => ?_⟩
  · intro i as at_
    rw [spaces] at at_
    exact ok.filled i as at_
  obtain ⟨tagged,entries⟩ := ok.tlb active
  refine ⟨tagged,fun j some_ => ?_⟩
  obtain ⟨i,as,at_,space,rest⟩ := entries j some_
  exact ⟨i,as,at_,by rw [spaces]; exact space,rest⟩

def fills : Act → Bool
  | .defineRegion => true
  | .prepareLoad _ _ => true
  | .write _ _ => true
  | .completeLoad => true
  | _ => false

lemma acts_building {next : Local} (inst : r.Installed) (building_ : Building r parts c0 n old oldAs got c)
    (acts : Acts r c.thread a next) (kind : fills a) : Building r parts c0 n old oldAs got (c.resume next) := by
  obtain ⟨ok,⟨now,holding⟩,here,saved,other,oldSpace,same,point⟩ := building_
  obtain ⟨store,acc⟩ := holding.accounts
  have away : c.thread.proc.space ≠ some old := fun eq => other (some.inj (here.symm.trans eq))
  -- what every such step needs: the accounts with the new parts, the old address space and the place in the code
  have build : ∀ now', (∃ store, AccountedBy r next.frames (update parts n now') store) →
      next.frames.kernel = c.heap.frames.kernel →
      next.frames.nextKernel = c.heap.frames.nextKernel → next.frames.spaces old = .prepared oldAs →
      next.proc.space = c.proc.space → next.proc.saved = c.proc.saved →
      building next.proc.point → Building r parts c0 n old oldAs got (c.resume next) := by
    rintro now' ⟨store,accounts⟩ kernel counter kept space held at_
    have still := acts_same inst ok acts away oldSpace kept
    exact ⟨act_valid inst ok acts,⟨now',holding.respaced accounts kernel counter⟩,
      space.trans here,held.trans saved,other,kept,same.trans still,at_⟩
  have apart : ∀ {i : Nat} (space : FrameOwners.Space), c.thread.proc.space = some i →
      update c.heap.frames.spaces i space old = .prepared oldAs := by
    intro i space eq
    have ne : old ≠ i := fun equal' => away (equal' ▸ eq)
    exact (update_of_ne ne ..).trans oldSpace
  cases acts with
  | @defineRegion image ph rest i as new at_ at_space space done =>
    cases here.symm.trans at_space
    have accounts := FrameOwners.defineRegion_accounted acc space new
    rw [update_idem] at accounts
    exact build _ ⟨store,accounts⟩ rfl rfl (apart _ at_space) rfl rfl rfl
  | @prepared image i as junk load scrap at_ at_space space done =>
    cases here.symm.trans at_space
    obtain ⟨store',accounts⟩ := FrameOwners.prepareLoad_accounted inst acc space done
    rw [update_idem] at accounts
    exact build _ ⟨store',accounts⟩ rfl rfl (apart _ at_space) rfl rfl rfl
  | @failed image i as junk errno load scrap at_ at_space space done =>
    cases here.symm.trans at_space
    obtain ⟨_,store',accounts⟩ := FrameOwners.prepareLoad_failed_accounted inst acc space done
    rw [update_idem] at accounts
    exact build _ ⟨store',accounts⟩ rfl rfl (apart _ at_space) rfl rfl rfl
  | write may written =>
    refine build now ⟨store,acc⟩ rfl rfl oldSpace rfl rfl ?_
    simp only [Local.setPoint,Caller.thread] at *
    cases at_ : c.proc.point <;> simp only [at_,building] at point ⊢
    case filling image left => cases left <;> rfl
    case arguments image left => cases left <;> rfl
    all_goals first | rfl | cases point
  | completeLoad => exact build now ⟨store,acc⟩ rfl rfl oldSpace rfl rfl rfl
  | _ => cases kind

variable {l next : Local}

lemma act_building (inst : r.Installed) (building_ : Building r parts c0 n old oldAs got (c.resume l))
    (did : act r l a = some next) (kind : fills a) : Building r parts c0 n old oldAs got (c.resume next) :=
  acts_building (c := c.resume l) inst building_ (act_sound did) kind

lemma Building.refill (building_ : Building r parts c0 n old oldAs got (c.resume l))
    (may : touches l.proc.point vaddr) (raised : raises l.tlb .tlbs vaddr)
    (done : mipsTrap (spaceOf l.frames l.proc.space) l.proc.loaded l.tlb random true true .tlbs vaddr = .retried tlb) :
    Building r parts c0 n old oldAs got (c.resume {l with tlb}) := by
  have valid : LocalValid r l := building_.valid
  obtain ⟨i,as,here,space⟩ := touches_prepared valid.proc may
  have eq : spaceOf l.frames l.proc.space = some as :=
    spaceOf_prepared (by rw [here,Option.map_some]; exact congrArg some space)
  rw [eq] at done
  have entries := retried_tlbFor (valid.tlb (touches_activated may)) here space raised done
  exact {building_ with valid := ⟨valid.accounts,valid.filled,valid.proc,fun _ => entries⟩}

section
variable (inst : r.Installed)
include inst

lemma store_building (building_ : Building r parts c0 n old oldAs got (c.resume l))
    (done : store r env l vaddr byte = .stored next) : Building r parts c0 n old oldAs got (c.resume next) := by
  unfold store at done
  simp only at done
  split at done
  · cases done
  rename_i may
  rw [Bool.not_eq_false] at may
  split at done
  · rename_i raised
    split at done
    · rename_i tlb retried
      have filled := building_.refill may raised retried
      split at done
      · rename_i hit
        cases done
        exact act_building inst filled hit rfl
      · cases done
    · cases done
    · cases done
  split at done
  · rename_i hit
    cases done
    exact act_building inst building_ hit rfl
  · cases done

lemma storeLoop_building (building_ : Building r parts c0 n old oldAs got (c.resume l))
    (done : storeLoop r env content errors i stores l = some (next,res)) :
    Building r parts c0 n old oldAs got (c.resume next) := by
  induction stores generalizing l i with
  | nil =>
    cases done
    exact building_
  | cons vaddr rest ih =>
    rw [storeLoop] at done
    split at done
    · cases done
      exact building_
    split at done
    · rename_i stored
      exact ih (store_building inst building_ stored) done
    · cases done
      exact building_
    · cases done

lemma defineLoop_building {segments : List Phdr} (building_ : Building r parts c0 n old oldAs got (c.resume l))
    (done : defineLoop r errors i segments l = some (next,res)) :
    Building r parts c0 n old oldAs got (c.resume next) := by
  induction segments generalizing l i with
  | nil =>
    cases done
    exact building_
  | cons ph rest ih =>
    rw [defineLoop] at done
    split at done
    · cases done
      exact building_
    split at done
    · cases done
    split at done
    · cases done
      exact building_
    obtain ⟨mid,did,left⟩ := bind_eq_some_iff.mp done
    exact ih (act_building inst building_ did rfl) left

lemma loadElf_building (building_ : Building r parts c0 n old oldAs got (c.resume l))
    (done : loadElf r env file image l = some (next,res)) : Building r parts c0 n old oldAs got (c.resume next) := by
  unfold loadElf at done
  split at done
  · cases done
  · rename_i defined
    cases done
    exact defineLoop_building inst building_ defined
  rename_i defined
  have ready := defineLoop_building inst building_ defined
  split at done
  · cases done
  rename_i prep
  have filling := act_building inst ready prep rfl
  split at done
  · split at done
    · cases done
    · rename_i stop
      cases done
      exact storeLoop_building inst filling stop
    rename_i stored
    obtain ⟨final,did,eq⟩ := map_eq_some_iff.mp done
    cases eq
    exact act_building inst (storeLoop_building inst filling stored) did rfl
  cases done
  exact filling

end

lemma drop_building (building_ : Building r parts c0 n old oldAs (tickets++got) c) :
    ∃ after, drop r tickets c = some after ∧ Building r parts c0 n old oldAs got after ∧
      after.heap.frames.spaces = c.heap.frames.spaces := by
  obtain ⟨ok,⟨now,holding⟩,here,saved,ne,oldSpace,eq,point⟩ := building_
  obtain ⟨heap,released,left,spaces,_⟩ := release_holding holding
  refine ⟨{c with heap},by rw [drop,released]; rfl,⟨?_,⟨now,left⟩,here,saved,ne,?_,eq,point⟩,spaces⟩
  · exact LocalValid.respaced ok ⟨_,left.accounts⟩ spaces
  · exact (congrFun spaces old).trans oldSpace

lemma fail_advances (building_ : Building r parts c0 n old oldAs got c) : advance r [.fail,.activate,.discard] c =
      (FrameOwners.step r c.heap.frames (.destroy n)).map fun frames => c.resume
        ⟨frames,c.memory,flushed,{c.proc with space := some old,saved := none,point := .user}⟩ := by
  have did : act r c.thread .fail = some {c.thread with
      proc := {c.proc with space := some old,saved := some n,point := .restoring}} := by
    have point := building_.point
    cases at_ : c.proc.point <;> rw [at_] at point <;>
      simp only [act,Caller.thread,at_,building_.saved,building_.here]
    all_goals cases point
  rw [advance,Transition.run,did]
  change ((FrameOwners.step r c.heap.frames (.destroy n)).map _ |>.bind some).map c.resume = _
  rw [Option.bind_fun_some,Option.map_map]
  rfl

section
variable (building_ : Building r parts c0 n old oldAs (tickets++[as]) c)
include building_

lemma abandon_spec (acc : AccountedBy r c0.heap.frames parts blocks) (fresh : parts n = fun _ => none)
    (space : c0.proc.space = some old) (held : c0.heap.frames.spaces old = .prepared oldAs) (errno : Errno) :
    (∀ new, c.heap.frames.spaces n = .prepared new →
      ∃ after, abandon r tickets as errno c = some (after,.error errno) ∧ Atomic c0 after) ∧
    ((∀ new, c.heap.frames.spaces n ≠ .prepared new) → abandon r tickets as errno c = none) := by
  obtain ⟨mid,dropped,left,spaces⟩ := drop_building building_
  have bad := fail_advances left
  obtain ⟨ok,⟨now,holding⟩,here,saved,ne,oldSpace,eq,point⟩ := left
  rw [←spaces,abandon,dropped,Option.bind_some,bad]
  constructor
  · intro new prep
    obtain ⟨store,accounts⟩ := holding.accounts
    obtain ⟨final,freed,store',accounts'⟩ := FrameOwners.destroy_accounted accounts prep
    rw [update_idem,←fresh,update_eq_self] at accounts'
    have step_ : FrameOwners.step r mid.heap.frames (.destroy n) =
        some {mid.heap.frames.setSpace n .destroyed with coremap := final} := by
      simp only [FrameOwners.step,prep,freed,Option.map_some]
    obtain ⟨heap,released,gone,sameSpaces,_⟩ := release_all (holding.respaced accounts' rfl rfl)
    obtain ⟨live,coremap⟩ := gone.finished acc
    rw [step_,Option.map_some,Option.bind_some,drop]
    refine ⟨_,congrArg _ (congrArg _ released),rfl,space.symm,?_,?_,coremap,live⟩
    · intro i at_
      cases space.symm.trans at_
      rw [held]
      exact (congrFun sameSpaces old).trans ((update_of_ne ne.symm ..).trans oldSpace)
    intro i bs at_ before
    cases space.symm.trans at_
    cases held.symm.trans before
    exact eq
  intro unprepared
  have step_ : FrameOwners.step r mid.heap.frames (.destroy n) = none := by
    cases at_ : mid.heap.frames.spaces n with
    | prepared new => exact absurd at_ (unprepared new)
    | _ => simp only [FrameOwners.step,at_]
  rw [step_]
  rfl

lemma abandoned_atomic (acc : AccountedBy r c0.heap.frames parts blocks) (fresh : parts n = fun _ => none)
    (space : c0.proc.space = some old) (held : c0.heap.frames.spaces old = .prepared oldAs)
    (done : abandon r tickets as errno c = some (after,res)) : Atomic c0 after := by
  obtain ⟨returns,panics⟩ := abandon_spec building_ acc fresh space held errno
  by_cases prep : ∃ new, c.heap.frames.spaces n = .prepared new
  · obtain ⟨new,prep⟩ := prep
    obtain ⟨ne,also,atomic⟩ := returns new prep
    cases done.symm.trans also
    exact atomic
  rw [panics fun new at_ => prep ⟨new,at_⟩] at done
  cases done

end

lemma Collecting.valid (coll : Collecting r parts c0 got c) (ok : LocalValid r c0.thread) : LocalValid r c.thread := by
  have acc : Accounts r c.heap.frames := ⟨_,coll.holding.accounts⟩
  have after := LocalValid.respaced ok acc coll.spaces
  rwa [Caller.thread,coll.memory,coll.tlb,coll.proc]

lemma switched (inst : r.Installed) (coll : Collecting r parts c0 got c) (ok : LocalValid r c0.thread)
    (space : c0.proc.space = some old) (held : c0.heap.frames.spaces old = .prepared oldAs)
    (done : advance r [.createSpace image,.activate] c = some after) :
    Building r parts c0 c0.heap.frames.nextSpace old oldAs got after := by
  obtain ⟨last,ran,rfl⟩ := map_eq_some_iff.mp done
  obtain ⟨one,created,ran⟩ := bind_eq_some_iff.mp ran
  obtain ⟨two,activated,ran⟩ := bind_eq_some_iff.mp ran
  cases ran
  have pre := coll.valid ok
  have created := act_sound created
  have activated := act_sound activated
  have after := act_valid inst (act_valid inst pre created) activated
  obtain ⟨store,acc⟩ := coll.holding.accounts
  have hit : c.heap.frames.spaces old = .prepared oldAs := (congrFun coll.spaces old).trans held
  have known := acc.known (by rw [hit]; exact FrameOwners.Space.noConfusion)
  have accounts := FrameOwners.create_accounted acc
  rw [coll.nextSpace] at accounts known
  cases created with
  | createSpace ready =>
    cases activated with
    | activateNew at_ =>
      refine ⟨after,⟨_,coll.holding.respaced accounts rfl rfl⟩,congrArg some coll.nextSpace,?_,known.ne',?_,?_,rfl⟩
      · exact (congrArg Proc.space coll.proc).trans space
      · refine (update_of_ne ?_ ..).trans hit
        rw [Caller.thread,coll.nextSpace]
        exact known.ne
      change Same oldAs c0.memory c.memory
      rw [coll.memory]
      exact Same.refl _ _
    | activateOld at_ => cases at_

lemma switch_spec (inst : r.Installed) (valid : LocalValid r c.thread) (user : c.proc.point = .user)
    (known : Known c.heap) (acc : AccountedBy r c.heap.frames parts blocks) (space : c.proc.space = some old)
    (held : c.heap.frames.spaces old = .prepared oldAs) (done : switch r env call file c = some (after,res)) :
    (∃ errno, res = .error errno ∧ (Atomic c after ↔ ¬ CopyinFails r env call c)) ∨
    ∃ tickets as, res = .ok (tickets,as) ∧ ¬ CopyinFails r env call c ∧
      Building r parts c c.heap.frames.nextSpace old oldAs (tickets++[as]) after := by
  have start : Collecting r parts c [] c := ⟨.refl acc known,rfl,rfl,rfl,rfl,rfl⟩
  unfold switch at done
  split at done
  · cases done
  · rename_i errno collected
    cases done
    refine .inl ⟨errno,rfl,?_⟩
    rcases collect_spec inst start collected with
      ⟨fails,_,t,pre,leaked⟩ | ⟨fine,⟨_,kept⟩ | ⟨_,no,_⟩⟩
    · refine iff_of_false (fun atomic => leaked ?_) (not_not_intro fails)
      rw [atomic.live,pre]
    · exact iff_of_true (kept.atomic user acc) fine
    · cases no
  rename_i mid tickets collected
  rcases collect_spec inst start collected with
    ⟨_,⟨_,no⟩,_⟩ | ⟨fine,⟨⟨_,no⟩,_⟩ | ⟨_,eq,kept⟩⟩
  · cases no
  · cases no
  cases eq
  split at done
  · rename_i miss
    obtain ⟨final,dropped,eq⟩ := map_eq_some_iff.mp done
    cases eq
    refine .inl ⟨_,rfl,iff_of_true ?_ fine⟩
    rcases get_collecting inst kept miss with ⟨_,same⟩ | ⟨_,no,_⟩
    · exact (drop_all same dropped).atomic user acc
    · cases no
  rename_i did
  obtain ⟨final,advanced,eq⟩ := map_eq_some_iff.mp done
  cases eq
  rcases get_collecting inst kept did with ⟨no,_⟩ | ⟨_,eq,more⟩
  · cases no
  cases eq
  have order := more.perm (perm_append_singleton ..).symm
  exact .inr ⟨_,_,rfl,fine,switched inst order valid space held advanced⟩

theorem sysExecv_atomic_iff (installed : r.Installed) (valid : LocalValid r c.thread)
    (user : c.proc.point = .user) (known : Known c.heap) :
    (∀ after errno, sysExecv r env call file strings oldTicket c = some (after,.error errno) →
      (Atomic c after ↔ ¬ CopyinFails r env call c)) ∧
    ∀ middle tickets as l errno, switch r env call file c = some (middle,.ok (tickets,as)) →
      loadElf r env file (imageOf call file) middle.thread = some (l,.error errno) →
      ((∃ after, sysExecv r env call file strings oldTicket c = some (after,.error errno) ∧
        Atomic c after) ↔ ∃ i new, l.proc.space = some i ∧ l.frames.spaces i = .prepared new) := by
  obtain ⟨parts,blocks,accounted⟩ := valid.accounts
  have touched : touches c.proc.point 0 = true := by rw [user]; rfl
  obtain ⟨old,oldAs,space,held⟩ : ∃ i as, c.proc.space = some i ∧ c.heap.frames.spaces i = .prepared as :=
    touches_prepared valid.proc touched
  have fresh : parts c.heap.frames.nextSpace = fun _ => none :=
    funext fun p => (accounted.spaces _ p).symm.trans (accounted.fresh p)
  constructor
  · intro after errno done
    unfold sysExecv at done
    split at done
    · cases done
    · rename_i failed
      cases done
      rcases switch_spec installed valid user known accounted space held failed with
        ⟨_,_,exact_⟩ | ⟨_,_,impossible,_⟩
      · exact exact_
      · cases impossible
    rename_i middle tickets as switched_
    rcases switch_spec installed valid user known accounted space held switched_ with
      ⟨_,impossible,_⟩ | ⟨_,_,equal,fine,building_⟩
    · cases impossible
    cases equal
    refine iff_of_true ?_ fine
    split at done
    · cases done
    · rename_i loading
      have stopped := loadElf_building installed building_ loading
      exact abandoned_atomic stopped accounted fresh space held done
    rename_i loaded
    have loaded := loadElf_building installed building_ loaded
    split at done
    · cases done
    · rename_i copying
      have stopped := storeLoop_building installed loaded copying
      exact abandoned_atomic stopped accounted fresh space held done
    obtain ⟨_,_,done⟩ := bind_eq_some_iff.mp done
    obtain ⟨_,_,done⟩ := bind_eq_some_iff.mp done
    obtain ⟨_,_,impossible⟩ := map_eq_some_iff.mp done
    cases impossible
  intro middle tickets as l errno switched_ loading
  rcases switch_spec installed valid user known accounted space held switched_ with
    ⟨_,impossible,_⟩ | ⟨_,_,equal,fine,building_⟩
  · cases impossible
  cases equal
  have building_ := loadElf_building installed building_ loading
  have result : sysExecv r env call file strings oldTicket c =
      abandon r tickets as errno (middle.resume l) := by
    simp only [sysExecv,switched_,loading]
  obtain ⟨returns,panics⟩ := abandon_spec building_ accounted fresh space held errno
  rw [result]
  constructor
  · rintro ⟨after,done,_⟩
    by_contra unprepared
    rw [panics fun new prepared => unprepared ⟨_,new,building_.here,prepared⟩] at done
    cases done
  rintro ⟨i,new,here,prepared⟩
  cases here.symm.trans building_.here
  exact returns new prepared

end

def started : Option Caller :=
  (Transition.run (step forkRam) (initial forkRam (fun _ => 0) flushed) startTiny).bind fun s =>
    s.running.map fun (_,p) => ⟨⟨s.frames,fun _ => none,0⟩,s.memory,s.tlb,p⟩

def ample : Env := ⟨fun _ => .fresh,36,fun _ => slot,fun _ _ => 0,fun _ => 0⟩

def truncated : File :=
  ⟨none,tinyImage.segments,tinyImage.entry,fun _ => 7,fun _ => none,fun _ => some .enoexec⟩

def malformed : File := {truncated with headerErrors := fun _ => some .enoexec}

def execs (arguments : List (Except Errno Nat)) (file : File) (c : Caller) :
    Option (Caller × Except Errno Unit) :=
  sysExecv forkRam ample ⟨some ['p'],arguments,none⟩ file (fun _ => 7) 0 c

def failure (result : Option (Caller × Except Errno Unit)) : Option Errno :=
  match result with
  | some (_,.error errno) => some errno
  | _ => none

lemma failure_some (bad : failure res = some errno) : ∃ after, res = some (after,.error errno) := by
  unfold failure at bad
  split at bad
  · cases bad
    exact ⟨_,rfl⟩
  · cases bad

lemma started_valid (hit : started = some c) :
    LocalValid forkRam c.thread ∧ Known c.heap ∧ c.heap.live = fun _ => none := by
  have inst : forkRam.Installed := by unfold Ram.Installed; decide
  obtain ⟨s,ran,hit⟩ := bind_eq_some_iff.mp hit
  obtain ⟨⟨k,p⟩,runs,rfl⟩ := map_eq_some_iff.mp hit
  obtain ⟨cur,at_⟩ := running_some runs
  have path : Reached forkRam (fun _ => 0) flushed s := Transition.run_reached ran
  exact ⟨(reached_valid inst path).local cur at_,⟨fun _ _ => rfl,fun _ _ no => by cases no⟩,rfl⟩

theorem truncated_exec_undone : ∃ c after, started = some c ∧ c.proc.point = .user ∧
    execs [.ok 1] truncated c = some (after,.error .enoexec) ∧ Atomic c after := by
  have installed : forkRam.Installed := by unfold Ram.Installed; decide
  have ran : (started.map fun c => (isUser c.proc.point,failure (execs [.ok 1] truncated c))) =
      some (true,some .enoexec) := by
    decide +kernel
  obtain ⟨c,found,values⟩ := map_eq_some_iff.mp ran
  simp only [Prod.mk.injEq,isUser_iff] at values
  obtain ⟨user,failed⟩ := values
  obtain ⟨after,result⟩ := failure_some failed
  obtain ⟨valid,known,_⟩ := started_valid found
  refine ⟨c,after,found,user,result,
    ((sysExecv_atomic_iff installed valid user known).1 after _ result).mpr ?_⟩
  rintro ⟨_,_,impossible⟩
  cases impossible

theorem failed_execs_not_undone : ∃ c after, started = some c ∧ LocalValid forkRam c.thread ∧
    c.proc.point = .user ∧ Known c.heap ∧
    execs [.ok 1,.error .efault] truncated c = some (after,.error .efault) ∧
    c.heap.live 2 = none ∧ (after.heap.live 2).isSome = true ∧ execs [] malformed c = none := by
  have ran : (started.map fun c => (isUser c.proc.point,
      (execs [.ok 1,.error .efault] truncated c).map fun result =>
        (failure (some result),(result.1.heap.live 2).isSome),(execs [] malformed c).isNone)) =
      some (true,some (some .efault,true),true) := by
    decide +kernel
  obtain ⟨c,found,values⟩ := map_eq_some_iff.mp ran
  simp only [Prod.mk.injEq,isUser_iff,isNone_iff_eq_none] at values
  obtain ⟨user,leaks,panics⟩ := values
  obtain ⟨result,taken,values⟩ := map_eq_some_iff.mp leaks
  simp only [Prod.mk.injEq] at values
  obtain ⟨errno,live⟩ := values
  obtain ⟨after,equal⟩ := failure_some errno
  cases equal
  obtain ⟨valid,known,empty⟩ := started_valid found
  exact ⟨c,after,found,valid,user,known,taken,congrFun empty 2,live,panics⟩
end ToyOS.ExecFailure
