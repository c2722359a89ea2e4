import ToyOS.ProcChanges

namespace ToyOS.WaitArguments
open ProcTable UserSpace UserCopy ProcMachine Option

-- sys_waitpid with the operations on global_mutex written out. `none` is a failed assertion.
structure Kernel where
  procs : Procs
  globalMutex : Option ProcId

def lockAcquire (k : Kernel) (p : ProcId) : Option Kernel :=
  if k.globalMutex = some p then none else some {k with globalMutex := some p}

def lockRelease (k : Kernel) (p : ProcId) : Option Kernel :=
  if k.globalMutex = some p then some {k with globalMutex := none} else none

inductive Reply where
  | error (errno : Errno)
  | success (child : ProcId) (status : BitVec 32)
  | asleep (child : ProcId)
  | exited
  deriving DecidableEq

def exMod : BitVec 32 := 1

def faultExit (k : Kernel) (p : ProcId) : Option (Kernel × Reply) :=
  (lockAcquire k p).bind fun k => (sysExit k.procs p exMod).bind fun result =>
    (lockRelease {k with procs := result.1} p).map (·,.exited)

def waitLoop (k : Kernel) (cur child : ProcId) (status : BitVec 32) (view : View) :
    Option (Kernel × Reply) :=
  if (k.procs.proc child).exit then
    match copyout view.random view.cpu status.toNat sizeofInt with
    | .copied _ =>
      (lockRelease {k with procs := procDestroy k.procs child} cur).map
        (·,.success child (k.procs.proc child).exitcode)
    | .error errno => (lockRelease k cur).map (·,.error errno)
    | .exits => faultExit k cur
    | .assertion => none
  else (lockRelease k cur).map (·,.asleep child)

def waitpidLocked (k : Kernel) (cur : ProcId) (pid : Int) (status : BitVec 32) (options : Int)
    (view : View) : Option (Kernel × Reply) :=
  if options ≠ 0 then some (k,.error .einval)
  else (lockAcquire k cur).bind fun k => match findProc k.procs pid with
    | none => none
    | some none => (lockRelease k cur).map (·,.error .esrch)
    | some (some child) =>
      if (k.procs.proc child).parentPid ≠ (k.procs.proc cur).pid then
        (lockRelease k cur).map (·,.error .echild)
      else waitLoop k cur child status view

def resumeLocked (k : Kernel) (cur child : ProcId) (status : BitVec 32) (view : View) :
    Option (Kernel × Reply) :=
  (lockAcquire k cur).bind fun k => waitLoop k cur child status view

def lockedAnswer (s : Procs) : WaitResult → Option (Kernel × Reply)
  | .panic => none
  | .error errno => some (⟨s,none⟩,.error errno)
  | .sleep child => some (⟨s,none⟩,.asleep child)
  | .reaped child word => some (⟨procDestroy s child,none⟩,.success child word)

lemma waitLoop_refines (s : Procs) (cur child : ProcId) (status : BitVec 32) (view : View) :
    waitLoop ⟨s,some cur⟩ cur child status view = lockedAnswer s (waitChild s child status view) := by
  unfold waitLoop waitChild
  cases exited : (s.proc child).exit with
  | false => simp [lockRelease,lockedAnswer]
  | true => cases copyout view.random view.cpu status.toNat sizeofInt <;>
      simp [lockRelease,lockAcquire,faultExit,lockedAnswer]

lemma resumeLocked_refines (s : Procs) (cur child : ProcId) (status : BitVec 32) (view : View) :
    resumeLocked ⟨s,none⟩ cur child status view = lockedAnswer s (waitChild s child status view) := by
  simp [resumeLocked,lockAcquire,waitLoop_refines]

lemma waitpidLocked_refines (s : Procs) (cur : ProcId) (pid : Int) (status : BitVec 32) (options : Int) (view : View) :
    waitpidLocked ⟨s,none⟩ cur pid status options view = lockedAnswer s (sysWaitpid s cur pid status options view) := by
  unfold waitpidLocked sysWaitpid
  by_cases none_ : options = 0
  · cases hit : findProc s pid with
    | none => simp [none_,lockAcquire,hit,lockedAnswer]
    | some slot =>
      cases slot with
      | none => simp [none_,lockAcquire,lockRelease,hit,lockedAnswer]
      | some child =>
        by_cases own : (s.proc child).parentPid = (s.proc cur).pid
        · simp [none_,lockAcquire,hit,own,waitLoop_refines]
        · simp [none_,lockAcquire,lockRelease,hit,own,lockedAnswer]
  · simp [none_,lockedAnswer]

def Waitable (k : Kernel) (cur : ProcId) (pid : Int) (child : ProcId) : Prop :=
  ∀ status view, Writable view.cpu status.toNat sizeofInt →
    ∃ after, waitpidLocked k cur pid status 0 view =
      some (after,.success child (k.procs.proc child).exitcode)

def Safe (s : Procs) (cur : ProcId) (pid : Int) (result : Option (Kernel × Reply)) : Prop :=
  ∃ k reply, result = some (k,reply) ∧ k.globalMutex = none ∧
    ((∃ child, reply = .success child (s.proc child).exitcode ∧ s.activeProcList pid = some child ∧
        (s.proc child).parentPid = (s.proc cur).pid ∧ (s.proc child).exit = true ∧
        k.procs.proc = s.proc ∧ ∀ i q, k.procs.activeProcList i = some q ↔
          s.activeProcList i = some q ∧ q ≠ child) ∨
      (((∃ errno, reply = .error errno) ∨ ∃ child, reply = .asleep child) ∧ k.procs = s ∧
        ∀ child, s.activeProcList pid = some child → (s.proc child).parentPid = (s.proc cur).pid →
          (s.proc child).exit = true → Waitable k cur pid child))

lemma exited_waitable (ok : Valid s) (slot : s.procs.activeProcList pid = some child)
    (own : (s.procs.proc child).parentPid = (s.procs.proc cur).pid)
    (exited : (s.procs.proc child).exit) : Waitable ⟨s.procs,none⟩ cur pid child := by
  intro status view writable
  obtain ⟨low,high⟩ := ok.table.bounds slot
  have range : pid ≤ pidMax ∧ pidMin ≤ pid := ⟨le_trans high ok.bound,low⟩
  have reaps : sysWaitpid s.procs cur pid status 0 view = .reaped child (s.procs.proc child).exitcode := by
    simp [sysWaitpid,findProc,range,slot,own,waitChild_writable exited writable]
  exact ⟨_,by rw [waitpidLocked_refines,reaps]; rfl⟩

lemma unchanged_safe (ok : Valid s) (reply : (∃ errno, r = Reply.error errno) ∨ ∃ child, r = .asleep child) :
    Safe s.procs cur pid (some (⟨s.procs,none⟩,r)) :=
  ⟨_,_,rfl,rfl,.inr ⟨reply,rfl,fun _ slot own exited => exited_waitable ok slot own exited⟩⟩

lemma panic_unsafe : ¬ Safe s cur pid none := by
  intro safe
  obtain ⟨_,_,none_,_⟩ := safe
  cases none_

lemma waitChild_safe (ok : Valid s) (slot : s.procs.activeProcList pid = some child)
    (own : (s.procs.proc child).parentPid = (s.procs.proc cur).pid) :
    Safe s.procs cur pid (lockedAnswer s.procs (waitChild s.procs child status view)) ↔
      ((s.procs.proc child).exit → ¬ HitsText view.cpu status.toNat sizeofInt) := by
  rcases waitChild_cases s.procs child status view with
    ⟨living,sleeps⟩ | ⟨exited,⟨writable,reaps⟩ | ⟨hits,panics⟩ | ⟨_,clear,fails⟩⟩
  · rw [sleeps]
    refine ⟨fun _ exited => ?_,fun _ => unchanged_safe ok (.inr ⟨child,rfl⟩)⟩
    rw [living] at exited
    cases exited
  · rw [reaps]
    refine ⟨fun _ _ => writable_clear writable,fun _ => ⟨_,_,rfl,rfl,.inl ⟨child,rfl,slot,own,exited,rfl,?_⟩⟩⟩
    intro i q
    exact destroy_found ok.table ⟨pid,slot⟩
  · rw [panics]
    exact ⟨fun safe => absurd safe panic_unsafe,fun clear => absurd hits (clear exited)⟩
  rw [fails]
  exact ⟨fun _ _ => clear,fun _ => unchanged_safe ok (.inl ⟨_,rfl⟩)⟩

def Harmless (s : Procs) (cur : ProcId) (pid : Int) (status : BitVec 32) (options : Int) (view : View) :
    Prop :=
  options ≠ 0 ∨ (pidMin ≤ pid ∧ pid ≤ pidMax ∧
    ∀ child, s.activeProcList pid = some child → (s.proc child).parentPid = (s.proc cur).pid →
      (s.proc child).exit = true → ¬ HitsText view.cpu status.toNat sizeofInt)

lemma waitpidLocked_safe (ok : Valid s) :
    Safe s.procs cur pid (waitpidLocked ⟨s.procs,none⟩ cur pid status options view) ↔
      Harmless s.procs cur pid status options view := by
  rw [waitpidLocked_refines]
  rcases sysWaitpid_cases s.procs cur pid status options view with
    ⟨refused,eq⟩ | ⟨none_,hit,eq⟩ | ⟨none_,hit,eq⟩ | ⟨child,none_,hit,stranger,eq⟩ |
    ⟨child,none_,hit,own,eq⟩
  · rw [eq]
    exact ⟨fun _ => .inl refused,fun _ => unchanged_safe ok (.inl ⟨_,rfl⟩)⟩
  · rw [eq]
    refine ⟨fun safe => absurd safe panic_unsafe,?_⟩
    intro harmless
    rcases harmless with refused | ⟨low,high,_⟩
    · exact absurd none_ refused
    · simp [findProc,low,high] at hit
  · obtain ⟨high,low,slot⟩ := findProc_some hit
    rw [eq]
    refine ⟨fun _ => .inr ⟨low,high,?_⟩,fun _ => unchanged_safe ok (.inl ⟨_,rfl⟩)⟩
    intro child there
    rw [slot] at there
    cases there
  · obtain ⟨high,low,slot⟩ := findProc_some hit
    rw [eq]
    refine ⟨fun _ => .inr ⟨low,high,?_⟩,fun _ => unchanged_safe ok (.inl ⟨_,rfl⟩)⟩
    intro ne there own
    cases there.symm.trans slot
    exact absurd own stranger
  obtain ⟨high,low,slot⟩ := findProc_some hit
  rw [eq,waitChild_safe ok slot own]
  refine ⟨fun clear => .inr ⟨low,high,?_⟩,?_⟩
  · intro ne there _
    cases there.symm.trans slot
    exact clear
  intro harmless
  rcases harmless with refused | ⟨_,_,clear⟩
  · exact absurd none_ refused
  · exact clear child slot own

theorem waitpid_safe_iff (path : Reached allowed s) :
    (∀ p pid status options view, s.ctl p = .user →
      (Safe s.procs p pid (waitpidLocked ⟨s.procs,none⟩ p pid status options view) ↔
        Harmless s.procs p pid status options view)) ∧
    ∀ p child status view, s.ctl p = .waiting child status false →
      (Safe s.procs p (s.procs.proc child).pid (resumeLocked ⟨s.procs,none⟩ p child status view) ↔
        ((s.procs.proc child).exit = true → ¬ HitsText view.cpu status.toNat sizeofInt)) := by
  have valid := reached_valid path
  refine ⟨fun p pid status options view _ => waitpidLocked_safe valid,?_⟩
  intro p child status view held
  obtain ⟨listed,own,_⟩ := valid.waiting p child status false held
  rw [resumeLocked_refines]
  exact waitChild_safe valid (valid.table.slot listed) own

theorem family_waitpid_safe : ∃ s, Reached Transition.Free s ∧ s.ctl 0 = .user ∧
    Safe s.procs 0 3 (waitpidLocked ⟨s.procs,none⟩ 0 3 0 0 smallView) := by
  have facts : (Transition.run step initial (family++[.exit 1 7])).map (fun s => s.ctl 0) =
    some .user := by decide
  obtain ⟨s,ran,running⟩ := map_eq_some_iff.mp facts
  have path : Reached Transition.Free s := Transition.run_reached ran
  refine ⟨s,path,running,((waitpid_safe_iff path).1 0 3 0 0 smallView running).mpr ?_⟩
  refine .inr ⟨by decide,by decide,fun _ _ _ _ hits => ?_⟩
  obtain ⟨_,addr,first,text⟩ := hits
  have null : firstBlocked smallView.cpu (Addresses (0#32).toNat sizeofInt) = some 0 := by decide +kernel
  cases null.symm.trans first
  exact absurd text (by decide)

theorem waitpid_stops_kernel : ∃ s, Reached Transition.Free s ∧ s.ctl 0 = .user ∧
    waitpidLocked ⟨s.procs,none⟩ 0 (-8) 0x10000000 0 smallView = none ∧
    waitpidLocked ⟨s.procs,none⟩ 0 3 0x400000 0 smallView = none := by
  have facts : (Transition.run step initial (family++[.exit 1 7])).map
      (fun s => (s.ctl 0,(waitpidLocked ⟨s.procs,none⟩ 0 (-8) 0x10000000 0 smallView).isNone,
        (waitpidLocked ⟨s.procs,none⟩ 0 3 0x400000 0 smallView).isNone)) =
    some (.user,true,true) := by decide +kernel
  obtain ⟨s,ran,all⟩ := map_eq_some_iff.mp facts
  simp only [Prod.mk.injEq,isNone_iff_eq_none] at all
  exact ⟨s,Transition.run_reached ran,all⟩
end ToyOS.WaitArguments
