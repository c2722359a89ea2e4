import ToyOS.ProcTable
import ToyOS.WaitStatus
import ToyOS.UserCopy

namespace ToyOS.ProcMachine
open Function ProcTable WaitStatus UserSpace Tlb UserCopy

-- The memory of a calling process as a copyout finds it: some state of the processor since its address space was last
-- activated.
structure View where
  space : AddrSpace
  mapped : Mapped space
  loaded : Bool
  cpu : Cpu
  reached : CpuReached ⟨space,loaded,flushed⟩ cpu
  random : Nat → Fin numTlb

lemma View.valid (view : View) : CpuInvariant view.cpu :=
  cpuReached_invariant view.reached view.mapped

lemma numTlb_pos : 0 < numTlb := by decide

def smallView : View :=
  ⟨smallSpace,smallSpace_mapped,true,⟨smallSpace,true,flushed⟩,.initial,fun _ => ⟨0,numTlb_pos⟩⟩

inductive WaitResult where
  | panic
  | error (errno : Errno)
  | sleep (child : ProcId)
  | reaped (child : ProcId) (status : BitVec 32)
  deriving DecidableEq

def sizeofInt : Nat := 4

def waitChild (s : Procs) (child : ProcId) (status : BitVec 32) (view : View) : WaitResult :=
  if (s.proc child).exit then
    match copyout view.random view.cpu status.toNat sizeofInt with
    | .copied _ => .reaped child (s.proc child).exitcode
    | .error errno => .error errno
    | .exits => .panic
    | .assertion => .panic
  else .sleep child

def sysWaitpid (s : Procs) (cur : ProcId) (pid : Int) (status : BitVec 32) (options : Int)
    (view : View) : WaitResult :=
  if options ≠ 0 then .error .einval
  else match findProc s pid with
    | none => .panic
    | some none => .error .esrch
    | some (some child) =>
      if (s.proc child).parentPid ≠ (s.proc cur).pid then .error .echild
      else waitChild s child status view

def isAlone (s : Procs) (p : ProcId) : Option Bool :=
  if (s.proc p).parentPid = -1 then some true
  else (parentChecker s (s.proc p).parentPid).map (!·)

def markExited (s : Procs) (p : ProcId) (exitcode : BitVec 32) : Procs :=
  s.set p {s.proc p with exit := true,exitcode := mkwaitExit exitcode}

def sysExit (s : Procs) (p : ProcId) (exitcode : BitVec 32) : Option (Procs × Option ProcId) :=
  match isAlone s p with
  | none => none
  | some true => some (procDestroy (exitedChildrenCleanup s (s.proc p).pid) p,none)
  | some false => match findProc s (s.proc p).parentPid with
    | some (some parent) =>
      some (exitedChildrenCleanup (markExited s p exitcode) (s.proc p).pid,some parent)
    | _ => none

-- Where the only thread of a process is. A process being made has none: it is unlisted before add_to_active_proc_list,
-- then listed, and parented once sys_fork has assigned parent_pid.
inductive Ctl where
  | unused
  | unlisted
  | listed
  | parented
  | user
  | checked
  | making (new : ProcId)
  | waiting (child : ProcId) (status : BitVec 32) (asleep : Bool)
  | gone
  deriving DecidableEq

-- `maker` is history: the process whose sys_fork made this one, none for those the menu made.
structure State where
  procs : Procs
  ctl : ProcId → Ctl
  maker : ProcId → Option ProcId
  next : ProcId

def initial : State := ⟨procBootstrap,fun _ => .unused,fun _ => none,0⟩

inductive Event where
  | check (p : ProcId)
  | nomem (p : ProcId)
  | create (maker : Option ProcId)
  | list (new : ProcId)
  | adopt (new : ProcId)
  | start (new : ProcId)
  | fail (new : ProcId)
  | exit (p : ProcId) (exitcode : BitVec 32)
  | wait (p : ProcId) (pid : Int) (status : BitVec 32) (options : Int) (view : View)
  | resume (p : ProcId) (view : View)

def State.setCtl (s : State) (p : ProcId) (c : Ctl) : State := {s with ctl := update s.ctl p c}

def State.create (s : State) (maker : Option ProcId) : State :=
  {procs := {s.procs with
    proc := update s.procs.proc s.next newProc
    procCount := s.procs.procCount+1}
   ctl := update s.ctl s.next .unlisted
   maker := update s.maker s.next maker
   next := s.next+1}

def Ctl.awake : Ctl → Ctl
  | .waiting child status _ => .waiting child status false
  | c => c

def wake (ctl : ProcId → Ctl) (p : ProcId) : ProcId → Ctl := update ctl p (ctl p).awake

def wakeSome (ctl : ProcId → Ctl) : Option ProcId → ProcId → Ctl
  | none => ctl
  | some p => wake ctl p

def State.answer (s : State) (p : ProcId) (status : BitVec 32) : WaitResult → Option State
  | .panic => none
  | .error _ => some (s.setCtl p .user)
  | .sleep child => some (s.setCtl p (.waiting child status true))
  | .reaped child _ => some {s.setCtl p .user with procs := procDestroy s.procs child}

def step (s : State) : Event → Option State
  | .check p =>
    if s.ctl p = .user then
      if checkProcLimit s.procs then some s else some (s.setCtl p .checked)
    else none
  | .nomem p => if s.ctl p = .checked then some (s.setCtl p .user) else none
  | .create none => some (s.create none)
  | .create (some p) =>
    if s.ctl p = .checked then some ((s.setCtl p (.making s.next)).create (some p)) else none
  | .list new =>
    if s.ctl new = .unlisted ∧ lowestFree s.procs < maxProc then
      some {s.setCtl new .listed with procs := addToActiveProcList s.procs new}
    else none
  | .adopt new => match s.ctl new,s.maker new with
      | .listed,some p => some {s.setCtl new .parented with
          procs := s.procs.set new {s.procs.proc new with parentPid := (s.procs.proc p).pid}}
      | _,_ => none
  | .start new => match s.ctl new,s.maker new with
      | .listed,none => some (s.setCtl new .user)
      | .parented,some p => some ((s.setCtl new .user).setCtl p .user)
      | _,_ => none
  | .fail new => match s.ctl new,s.maker new with
      | .listed,none => some {s.setCtl new .gone with procs := procDestroy s.procs new}
      | .parented,some p =>
        some {(s.setCtl new .gone).setCtl p .user with procs := procDestroy s.procs new}
      | _,_ => none
  | .exit p exitcode =>
    if s.ctl p = .user then
      (sysExit s.procs p exitcode).map fun result =>
        {s with procs := result.1,ctl := wakeSome (update s.ctl p .gone) result.2}
    else none
  | .wait p pid status options view =>
    if s.ctl p = .user then s.answer p status (sysWaitpid s.procs p pid status options view)
    else none
  | .resume p view => match s.ctl p with
      | .waiting child status false => s.answer p status (waitChild s.procs child status view)
      | _ => none

def outcome (s : State) : Event → Option (ProcId × WaitResult)
  | .wait p pid status options view =>
    if s.ctl p = .user then some (p,sysWaitpid s.procs p pid status options view) else none
  | .resume p view => match s.ctl p with
      | .waiting child status false => some (p,waitChild s.procs child status view)
      | _ => none
  | _ => none

def State.forked (s : State) (maker : Option ProcId) : State :=
  let listed := addToActiveProcList (s.create maker).procs s.next
  {procs := match maker with
    | none => listed
    | some p => listed.set s.next {listed.proc s.next with parentPid := (listed.proc p).pid}
   ctl := update s.ctl s.next .user
   maker := update s.maker s.next maker
   next := s.next+1}

def Reached (allowed : State → Event → Prop) (s : State) : Prop :=
  Transition.Reached step allowed initial s

def family : List Event :=
  [.create none,.list 0,.start 0,.check 0,.create (some 0),.list 1,.adopt 1,.start 1]
end ToyOS.ProcMachine
