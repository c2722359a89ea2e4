import ToyOS.ProcMachine

namespace ToyOS.ProcMachine
open Function ProcTable WaitStatus Option

lemma marked_valid (ok : TableValid s) : TableValid (markExited s p exitcode) := set_valid ok rfl

lemma marked_proc (s : Procs) (p : ProcId) (exitcode : BitVec 32) (c : ProcId) : (markExited s p exitcode).proc c =
      if c = p then {s.proc p with exit := true,exitcode := mkwaitExit exitcode} else s.proc c := by
  simp only [markExited,Procs.set,update_apply]

lemma marked_listed : Listed (markExited s p exitcode) c ↔ Listed s c := Iff.rfl

-- What each successful step does, with everything the code has checked.
inductive Step : State → Event → State → Prop where
  | refused (running : s.ctl p = .user) (full : checkProcLimit s.procs = true) : Step s (.check p) s
  | checked (running : s.ctl p = .user) (room : checkProcLimit s.procs = false) :
      Step s (.check p) (s.setCtl p .checked)
  | nomem (passed : s.ctl p = .checked) : Step s (.nomem p) (s.setCtl p .user)
  | spawn : Step s (.create none) (s.create none)
  | fork (passed : s.ctl p = .checked) :
      Step s (.create (some p)) ((s.setCtl p (.making s.next)).create (some p))
  | list (made : s.ctl new = .unlisted) (inside : lowestFree s.procs < maxProc) :
      Step s (.list new) {s.setCtl new .listed with procs := addToActiveProcList s.procs new}
  | adopt (made : s.ctl new = .listed) (by_ : s.maker new = some p) :
      Step s (.adopt new) {s.setCtl new .parented with
        procs := s.procs.set new {s.procs.proc new with parentPid := (s.procs.proc p).pid}}
  | startSpawned (made : s.ctl new = .listed) (by_ : s.maker new = none) :
      Step s (.start new) (s.setCtl new .user)
  | startForked (made : s.ctl new = .parented) (by_ : s.maker new = some p) :
      Step s (.start new) ((s.setCtl new .user).setCtl p .user)
  | failSpawned (made : s.ctl new = .listed) (by_ : s.maker new = none) :
      Step s (.fail new) {s.setCtl new .gone with procs := procDestroy s.procs new}
  | failForked (made : s.ctl new = .parented) (by_ : s.maker new = some p) :
      Step s (.fail new) {(s.setCtl new .gone).setCtl p .user with procs := procDestroy s.procs new}
  | exitAlone (running : s.ctl p = .user)
      (alone : (s.procs.proc p).parentPid = -1 ∨
        ∀ q, s.procs.activeProcList (s.procs.proc p).parentPid = some q → (s.procs.proc q).exit = true) :
      Step s (.exit p exitcode) {s with
        procs := procDestroy (exitedChildrenCleanup s.procs (s.procs.proc p).pid) p
        ctl := update s.ctl p .gone}
  | exitChild (running : s.ctl p = .user)
      (found : s.procs.activeProcList (s.procs.proc p).parentPid = some parent)
      (alive : (s.procs.proc parent).exit = false) :
      Step s (.exit p exitcode) {s with
        procs := exitedChildrenCleanup (markExited s.procs p exitcode) (s.procs.proc p).pid
        ctl := wake (update s.ctl p .gone) parent}
  | error (called : outcome s event = some (p,.error errno)) : Step s event (s.setCtl p .user)
  | sleep (called : outcome s event = some (p,.sleep child)) :
      Step s event (s.setCtl p (.waiting child status true))
  | reaped (called : outcome s event = some (p,.reaped child word)) :
      Step s event {s.setCtl p .user with procs := procDestroy s.procs child}

lemma answer_sound (call : outcome s event = some (p,res))
    (did : s.answer p status res = some after) : Step s event after := by
  cases res with
  | panic => cases did
  | error errno => cases did; exact .error call
  | sleep child => cases did; exact .sleep call
  | reaped child word => cases did; exact .reaped call

lemma parentChecker_some (checked : parentChecker s pid = some alive) :
    (alive ∧ ∃ q, s.activeProcList pid = some q ∧ (s.proc q).exit = false) ∨
    (alive = false ∧ ∀ q, s.activeProcList pid = some q → (s.proc q).exit) := by
  unfold parentChecker at checked
  split at checked
  · cases hit : s.activeProcList pid with
    | none =>
      rw [hit] at checked
      cases checked
      exact .inr ⟨rfl,fun q here => nomatch here⟩
    | some q =>
      rw [hit] at checked
      cases checked
      cases exited : (s.proc q).exit with
      | false => exact .inl ⟨rfl,q,rfl,exited⟩
      | true =>
        refine .inr ⟨rfl,fun other same => ?_⟩
        cases same
        exact exited
  · cases checked

lemma exit_sound (runs : s.ctl p = .user) (ran : sysExit s.procs p exitcode = some result) :
    Step s (.exit p exitcode) {s with procs := result.1,ctl := wakeSome (update s.ctl p .gone) result.2} := by
  unfold sysExit isAlone at ran
  by_cases dummy : (s.procs.proc p).parentPid = -1
  · simp only [dummy,↓reduceIte,some.injEq] at ran
    subst ran
    exact .exitAlone runs (.inl dummy)
  simp only [dummy,↓reduceIte] at ran
  cases checked : parentChecker s.procs (s.procs.proc p).parentPid with
  | none => simp [checked] at ran
  | some alive =>
    rcases parentChecker_some checked with ⟨rfl,q,hit,living⟩ | ⟨rfl,absent⟩
    · simp only [checked,Option.map_some,Bool.not_true] at ran
      split at ran
      · rename_i parent located
        cases some.inj ran
        unfold findProc at located
        split at located
        · have same := (some.inj located).symm.trans hit
          cases same
          exact .exitChild runs hit living
        · cases located
      · cases ran
    simp only [checked,Option.map_some,Bool.not_false,some.injEq] at ran
    subst ran
    exact .exitAlone runs (.inr absent)

lemma step_sound (did : step s event = some after) : Step s event after := by
  cases event with
  | check p =>
    simp only [step] at did
    split at did
    · rename_i runs
      split at did
      · rename_i full; cases did; exact .refused runs full
      · rename_i room; cases did; exact .checked runs (by simpa using room)
    · cases did
  | nomem p =>
    simp only [step] at did
    split at did
    · rename_i passed; cases did; exact .nomem passed
    · cases did
  | create maker =>
    cases maker with
    | none => cases did; exact .spawn
    | some p =>
      simp only [step] at did
      split at did
      · rename_i passed; cases did; exact .fork passed
      · cases did
  | list new =>
    simp only [step] at did
    split at did
    · rename_i made; cases did; exact .list made.1 made.2
    · cases did
  | adopt new =>
    simp only [step] at did
    split at did
    · rename_i made by_; cases did; exact .adopt made by_
    · cases did
  | start new =>
    simp only [step] at did
    split at did
    · rename_i made by_; cases did; exact .startSpawned made by_
    · rename_i made by_; cases did; exact .startForked made by_
    · cases did
  | fail new =>
    simp only [step] at did
    split at did
    · rename_i made by_; cases did; exact .failSpawned made by_
    · rename_i made by_; cases did; exact .failForked made by_
    · cases did
  | exit p exitcode =>
    simp only [step] at did
    split at did
    · rename_i runs
      obtain ⟨res,ran,rfl⟩ := map_eq_some_iff.mp did
      exact exit_sound runs ran
    · cases did
  | wait p pid status options view =>
    simp only [step] at did
    split at did
    · rename_i runs; exact answer_sound (by simp only [outcome,runs,↓reduceIte]) did
    · cases did
  | resume p view =>
    simp only [step] at did
    split at did
    · rename_i child status asleep
      exact answer_sound (by simp only [outcome,asleep]) did
    · cases did
end ToyOS.ProcMachine
