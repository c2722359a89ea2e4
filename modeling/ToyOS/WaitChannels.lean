import ToyOS.ProcChanges

namespace ToyOS.WaitChannels
open Function ProcTable UserCopy ProcMachine Option

-- The next operation of a process's thread on global_mutex, a wait channel or the table. From exitTest to exitRelease,
-- from waitFind to waitUnlock and at waitCopy and waitRelease the thread holds global_mutex; at waitUnlock and
-- waitSleep the spinlock of its own wait channel.
inductive Pc where
  | absent
  | user
  | gone
  | exitStart (exitcode : BitVec 32)
  | exitTest (exitcode : BitVec 32)
  | exitSignal (parent : ProcId)
  | exitCleanup (parent : ProcId)
  | exitRelease (parent : Option ProcId)
  | waitStart (pid : Int) (status : BitVec 32)
  | waitFind (pid : Int) (status : BitVec 32)
  | waitTest (child : ProcId) (status : BitVec 32)
  | waitChannel (child : ProcId) (status : BitVec 32)
  | waitUnlock (child : ProcId) (status : BitVec 32)
  | waitSleep (child : ProcId) (status : BitVec 32)
  | asleep (child : ProcId) (status : BitVec 32)
  | woken (child : ProcId) (status : BitVec 32)
  | waitCopy (child : ProcId) (status : BitVec 32)
  | waitRelease
  deriving DecidableEq

-- `wcLock` and `wcThreads` belong to the wait channel of the wait_child of each process.
structure System where
  procs : Procs
  next : ProcId
  globalMutex : Option ProcId
  wcLock : ProcId → Option ProcId
  wcThreads : ProcId → List ProcId
  pc : ProcId → Pc

def boot : System := ⟨procBootstrap,0,none,fun _ => none,fun _ => [],fun _ => .absent⟩
def System.goto (f : System) (p : ProcId) (pc : Pc) : System := {f with pc := update f.pc p pc}

def lockAcquire (f : System) (p : ProcId) (pc : Pc) : Option System :=
  if f.globalMutex = none then some {f.goto p pc with globalMutex := some p} else none

def lockRelease (f : System) (p : ProcId) (pc : Pc) : Option System :=
  if f.globalMutex = some p then some {f.goto p pc with globalMutex := none} else none

def wchanLock (f : System) (p : ProcId) (pc : Pc) : Option System :=
  if f.wcLock p = none then some {f.goto p pc with wcLock := update f.wcLock p (some p)} else none

def wchanSleep (f : System) (p : ProcId) (pc : Pc) : Option System :=
  if f.wcLock p = some p then
    some {f.goto p pc with
      wcThreads := update f.wcThreads p (f.wcThreads p++[p])
      wcLock := update f.wcLock p none}
  else none

def awaken : Pc → Pc
  | .asleep child status => .woken child status
  | pc => pc

def wchanWakeone (f : System) (c : ProcId) : Option System :=
  if f.wcLock c = none then
    match f.wcThreads c with
    | [] => some f
    | target :: rest => some {f with
        wcThreads := update f.wcThreads c rest
        pc := update f.pc target (awaken (f.pc target))}
  else none

def create (f : System) (maker : Option ProcId) : Option System :=
  if f.globalMutex = none ∧ lowestFree f.procs < maxProc then
    let made := (State.forked ⟨f.procs,fun _ => .unused,fun _ => none,f.next⟩ maker)
    some {f.goto f.next .user with procs := made.procs,next := f.next+1}
  else none

def advance (f : System) (p : ProcId) (view : View) : Option System :=
  match f.pc p with
  | .exitStart exitcode => lockAcquire f p (.exitTest exitcode)
  | .exitTest exitcode => match isAlone f.procs p with
    | none => none
    | some true => some {f.goto p (.exitRelease none) with
        procs := procDestroy (exitedChildrenCleanup f.procs (f.procs.proc p).pid) p}
    | some false => match findProc f.procs (f.procs.proc p).parentPid with
      | some (some parent) => some {f.goto p (.exitSignal parent) with
          procs := markExited f.procs p exitcode}
      | _ => none
  | .exitSignal parent => (wchanWakeone f parent).map (·.goto p (.exitCleanup parent))
  | .exitCleanup parent => some {f.goto p (.exitRelease (some parent)) with
      procs := exitedChildrenCleanup f.procs (f.procs.proc p).pid}
  | .exitRelease _ => lockRelease f p .gone
  | .waitStart pid status => lockAcquire f p (.waitFind pid status)
  | .waitFind pid status => match findProc f.procs pid with
    | none => none
    | some none => some (f.goto p .waitRelease)
    | some (some child) =>
      if (f.procs.proc child).parentPid ≠ (f.procs.proc p).pid then some (f.goto p .waitRelease)
      else some (f.goto p (.waitTest child status))
  | .waitTest child status =>
    if (f.procs.proc child).exit then some (f.goto p (.waitCopy child status))
    else some (f.goto p (.waitChannel child status))
  | .waitChannel child status => wchanLock f p (.waitUnlock child status)
  | .waitUnlock child status => lockRelease f p (.waitSleep child status)
  | .waitSleep child status => wchanSleep f p (.asleep child status)
  | .woken child status => lockAcquire f p (.waitTest child status)
  | .waitCopy child status => match copyout view.random view.cpu status.toNat sizeofInt with
    | .copied _ => some {f.goto p .waitRelease with procs := procDestroy f.procs child}
    | .error _ => some (f.goto p .waitRelease)
    | .exits => none
    | .assertion => none
  | .waitRelease => lockRelease f p .user
  | _ => none

inductive Action where
  | spawn
  | fork (p : ProcId)
  | exit (p : ProcId) (exitcode : BitVec 32)
  | waitpid (p : ProcId) (pid : Int) (status : BitVec 32)
  | advance (p : ProcId) (view : View)

def move (f : System) : Action → Option System
  | .spawn => create f none
  | .fork p => if f.pc p = .user ∧ checkProcLimit f.procs = false then create f (some p) else none
  | .exit p exitcode => if f.pc p = .user then some (f.goto p (.exitStart exitcode)) else none
  | .waitpid p pid status => if f.pc p = .user then some (f.goto p (.waitStart pid status)) else none
  | .advance p view => advance f p view

def SystemReached (f : System) : Prop := Transition.Reached move Transition.Free boot f

def Pc.ctl : Pc → Option Ctl
  | .absent => some .unused
  | .user | .exitStart _ | .waitStart _ _ => some .user
  | .gone => some .gone
  | .waitSleep child status | .asleep child status => some (.waiting child status true)
  | .woken child status => some (.waiting child status false)
  | _ => none

def Pc.signalled : Pc → Option ProcId
  | .exitCleanup parent => some parent
  | .exitRelease parent => parent
  | _ => none

def Pc.sleeping : Pc → Bool
  | .asleep _ _ => true
  | _ => false

def Pc.locking : Pc → Bool
  | .waitUnlock _ _ | .waitSleep _ _ => true
  | _ => false

def Entered (s : State) (p child : ProcId) (status : BitVec 32) : Prop :=
  (s.ctl p = .user ∧ ∃ pid, findProc s.procs pid = some (some child) ∧
    (s.procs.proc child).parentPid = (s.procs.proc p).pid) ∨
  s.ctl p = .waiting child status false

def Section (s : State) (procs : Procs) (p : ProcId) : Pc → Prop
  | .exitTest _ => s.ctl p = .user ∧ procs = s.procs
  | .exitSignal parent | .exitCleanup parent => s.ctl p = .user ∧ ∃ exitcode,
      procs = markExited s.procs p exitcode ∧
      sysExit s.procs p exitcode = some (exitedChildrenCleanup procs (s.procs.proc p).pid,some parent)
  | .exitRelease parent => s.ctl p = .user ∧ ∃ exitcode, sysExit s.procs p exitcode = some (procs,parent)
  | .waitFind _ _ => s.ctl p = .user ∧ procs = s.procs
  | .waitTest child status => procs = s.procs ∧ Entered s p child status
  | .waitChannel child status | .waitUnlock child status =>
    procs = s.procs ∧ Entered s p child status ∧ (s.procs.proc child).exit = false
  | .waitCopy child status =>
    procs = s.procs ∧ Entered s p child status ∧ (s.procs.proc child).exit = true
  | .waitRelease => ∃ event after, step s event = some after ∧ after.procs = procs ∧
      after.ctl = update s.ctl p .user ∧ after.next = s.next
  | _ => False

def ctlNow (f : System) (s : State) : ProcId → Ctl := match f.globalMutex with
  | none => s.ctl
  | some p => wakeSome s.ctl (f.pc p).signalled

structure Refines (f : System) (s : State) : Prop where
  next : f.next = s.next
  threads : ∀ c, f.wcThreads c = if (f.pc c).sleeping then [c] else []
  locks : ∀ c, f.wcLock c = if (f.pc c).locking then some c else none
  others : ∀ q, f.globalMutex ≠ some q → (f.pc q).ctl = some (ctlNow f s q)
  inside : ∀ p, f.globalMutex = some p → Section s f.procs p (f.pc p)
  free : f.globalMutex = none → f.procs = s.procs

lemma boot_refines : Refines boot initial :=
  ⟨rfl,fun _ => rfl,fun _ => rfl,fun _ _ => rfl,nofun,fun _ => rfl⟩

def Alike (a b : Pc) : Prop := a.sleeping = b.sleeping ∧ a.locking = b.locking

section
variable (refines : Refines f s)
include refines

lemma alike_threads (alike : Alike (f.pc p) pc) (c : ProcId) :
    f.wcThreads c = if (update f.pc p pc c).sleeping then [c] else [] := by
  rw [refines.threads c]
  by_cases here : c = p
  · subst here; rw [update_self,alike.1]
  · rw [update_of_ne here]

lemma alike_locks (alike : Alike (f.pc p) pc) (c : ProcId) :
    f.wcLock c = if (update f.pc p pc c).locking then some c else none := by
  rw [refines.locks c]
  by_cases here : c = p
  · subst here; rw [update_self,alike.2]
  · rw [update_of_ne here]

lemma refines_inside (holds : f.globalMutex = some p) (at_ : f.pc p = was) (alike : Alike was pc)
    (signals : wakeSome s.ctl was.signalled = wakeSome s.ctl pc.signalled)
    (entered : Section s procs p pc) : Refines {f.goto p pc with procs := procs} s := by
  subst at_
  refine ⟨refines.next,alike_threads refines alike,alike_locks refines alike,?_,?_,?_⟩
  · intro q other
    have apart : q ≠ p := fun eq => other (eq ▸ holds)
    have pre := refines.others q other
    simp only [ctlNow,holds,System.goto,update_self,update_of_ne apart] at pre ⊢
    rwa [←signals]
  · intro q there
    cases holds.symm.trans there
    simpa [System.goto] using entered
  intro none_
  rw [show f.globalMutex = none from none_] at holds
  cases holds

lemma refines_outside (out : f.globalMutex ≠ some p) (agrees : (f.pc p).ctl = pc.ctl)
    (threads : ∀ c, queues c = if (update f.pc p pc c).sleeping then [c] else [])
    (locks : ∀ c, owners c = if (update f.pc p pc c).locking then some c else none) :
    Refines {f.goto p pc with wcThreads := queues,wcLock := owners} s := by
  have held : ∀ q, f.globalMutex = some q → update f.pc p pc q = f.pc q := by
    intro q holds
    rw [update_of_ne]
    intro eq
    exact out (eq ▸ holds)
  have eq : ctlNow {f.goto p pc with wcThreads := queues,wcLock := owners} s = ctlNow f s := by
    unfold ctlNow System.goto
    cases holds : f.globalMutex with
    | none => rfl
    | some q => simp only [held q holds]
  refine ⟨refines.next,threads,locks,?_,?_,refines.free⟩
  · intro q other
    rw [eq]
    have pre := refines.others q other
    by_cases here : q = p
    · subst here
      simpa [System.goto,←agrees] using pre
    · simpa [System.goto,here] using pre
  intro q holds
  have pre := refines.inside q holds
  simpa only [System.goto,held q holds] using pre

lemma refines_acquire (alike : Alike (f.pc p) pc)
    (silent : pc.signalled = none) (entered : f.globalMutex = none → Section s s.procs p pc)
    (did : lockAcquire f p pc = some after) : Refines after s := by
  unfold lockAcquire at did
  split at did
  · rename_i none_
    cases did
    refine ⟨refines.next,alike_threads refines alike,alike_locks refines alike,?_,?_,nofun⟩
    · intro q other
      have apart : q ≠ p := fun eq => other (by rw [eq])
      have pre := refines.others q (by rw [none_]; nofun)
      simpa [ctlNow,none_,System.goto,apart,silent,wakeSome] using pre
    intro q hit
    cases hit
    simpa [System.goto,refines.free none_] using entered none_
  · cases did

lemma refines_release (alike : Alike (f.pc p) pc) (procs : t.procs = f.procs) (next : t.next = s.next)
    (rest : ∀ q ≠ p, t.ctl q = ctlNow f s q) (own : pc.ctl = some (t.ctl p)) (did : lockRelease f p pc = some after) :
    Refines after t := by
  unfold lockRelease at did
  split at did
  · rename_i holds
    cases did
    refine ⟨refines.next.trans next.symm,alike_threads refines alike,alike_locks refines alike,?_,nofun,
      fun _ => procs.symm⟩
    intro q _
    by_cases here : q = p
    · subst here
      simpa [System.goto,ctlNow] using own
    have pre := refines.others q (by rw [holds]; simpa [eq_comm] using here)
    simpa [System.goto,ctlNow,here,rest q here] using pre
  · cases did

lemma Refines.holds (at_ : f.pc p = pc) (inside : pc.ctl = none) : f.globalMutex = some p ∧ Section s f.procs p pc := by
  have holds : f.globalMutex = some p := by
    by_contra other
    have agrees := refines.others p other
    rw [at_,inside] at agrees
    cases agrees
  exact ⟨holds,at_ ▸ refines.inside p holds⟩

lemma Refines.outside (at_ : f.pc p = pc) (out : ¬ Section s f.procs p pc) :
    f.globalMutex ≠ some p ∧ pc.ctl = some (ctlNow f s p) := by
  have ne : f.globalMutex ≠ some p := fun holds => out (at_ ▸ refines.inside p holds)
  exact ⟨ne,at_ ▸ refines.others p ne⟩

end

lemma ctlNow_free (free : f.globalMutex = none) : ctlNow f s = s.ctl := by rw [ctlNow,free]

lemma ctlNow_silent (holds : f.globalMutex = some p) (silent : (f.pc p).signalled = none) : ctlNow f s = s.ctl := by
  simp only [ctlNow,holds,silent,wakeSome]

lemma entered_step (entered : Entered s p child status) (view : View) :
    ∃ event, step s event = s.answer p status (waitChild s.procs child status view) := by
  rcases entered with ⟨runs,pid,hit,own⟩ | held
  · exact ⟨.wait p pid status 0 view,by simp [step,runs,sysWaitpid,hit,own]⟩
  · exact ⟨.resume p view,by simp [step,held]⟩

lemma exitTest_refines (refines : Refines f s) (at_ : f.pc p = .exitTest exitcode)
    (did : advance f p view = some after) : Refines after s := by
  obtain ⟨holds,runs,eq⟩ := refines.holds at_ rfl
  simp only [advance,at_] at did
  cases alone : isAlone f.procs p with
  | none => simp [alone] at did
  | some yes =>
    cases yes with
    | true =>
      simp only [alone,some.injEq] at did
      subst did
      refine refines_inside refines holds at_ ⟨rfl,rfl⟩ rfl ⟨runs,exitcode,?_⟩
      rw [eq] at alone ⊢
      simp [sysExit,alone]
    | false =>
      simp only [alone] at did
      split at did
      · rename_i parent hit
        cases did
        refine refines_inside refines holds at_ ⟨rfl,rfl⟩ rfl ⟨runs,exitcode,by rw [eq],?_⟩
        rw [eq] at alone hit ⊢
        simp [sysExit,alone,hit]
      · cases did

lemma waiting_pc {pc : Pc} (waits : pc.ctl = some (.waiting child status true)) :
    pc.locking ∨ pc = .asleep child status := by
  cases pc with
  | waitSleep _ _ => exact .inl rfl
  | asleep _ _ => cases waits; exact .inr rfl
  | woken _ _ => cases waits
  | _ => cases waits

lemma sleeping_pc {pc : Pc} (sleeps : pc.sleeping) : ∃ child status, pc = .asleep child status := by
  cases pc with
  | asleep child status => exact ⟨child,status,rfl⟩
  | _ => cases sleeps

lemma exitSignal_refines (refines : Refines f s) (at_ : f.pc p = .exitSignal parent)
    (did : advance f p view = some after) : Refines after s := by
  obtain ⟨holds,runs,marked⟩ := refines.holds at_ rfl
  have silent : ctlNow f s = s.ctl := ctlNow_silent holds (by rw [at_]; rfl)
  simp only [advance,at_] at did
  obtain ⟨woken,wakes,rfl⟩ := map_eq_some_iff.mp did
  unfold wchanWakeone at wakes
  split at wakes
  · rename_i unlocked
    have settled : (f.pc parent).locking = false := by
      have lock := refines.locks parent
      rw [unlocked] at lock
      by_contra locked
      simp [locked] at lock
    cases asleep : (f.pc parent).sleeping with
    | false =>
      have queue : f.wcThreads parent = [] := by rw [refines.threads,asleep]; rfl
      simp only [queue,some.injEq] at wakes
      subst wakes
      have unwoken : wake s.ctl parent = s.ctl := by
        rcases awake_cases (s.ctl parent) with eq | ⟨child,status,sleeps,_⟩
        · rw [wake,eq,update_eq_self]
        have apart : parent ≠ p := by
          intro eq
          rw [eq,runs] at sleeps
          cases sleeps
        have agrees := refines.others parent (by rw [holds]; simpa [eq_comm] using apart)
        rw [silent,sleeps] at agrees
        rcases waiting_pc agrees with locked | queued
        · rw [settled] at locked; cases locked
        · rw [queued] at asleep; cases asleep
      exact refines_inside refines holds at_ ⟨rfl,rfl⟩ unwoken.symm ⟨runs,marked⟩
    | true =>
      obtain ⟨child,status,queued⟩ := sleeping_pc asleep
      have apart : parent ≠ p := by
        intro eq
        rw [eq,at_] at queued
        cases queued
      have queue : f.wcThreads parent = [parent] := by rw [refines.threads,asleep]; rfl
      simp only [queue,queued,awaken,some.injEq] at wakes
      subst wakes
      have agrees := refines.others parent (by rw [holds]; simpa [eq_comm] using apart)
      rw [silent,queued] at agrees
      have awake : wake s.ctl parent parent = .waiting child status false := by
        rw [wake,update_self,←some.inj agrees]
        rfl
      refine ⟨refines.next,?_,?_,?_,?_,?_⟩
      · intro c
        have pre := refines.threads c
        simp only [System.goto]
        grind [Pc.sleeping]
      · intro c
        have pre := refines.locks c
        simp only [System.goto]
        grind [Pc.locking]
      · intro q other
        have notHolder : q ≠ p := fun eq => other (eq ▸ holds)
        have pre := refines.others q other
        rw [silent] at pre
        simp only [ctlNow,holds,System.goto,update_self,update_of_ne notHolder,Pc.signalled,wakeSome]
        by_cases here : q = parent
        · subst here
          rw [update_self,awake]
          rfl
        rw [update_of_ne here,wake_other _ here]
        exact pre
      · intro q there
        cases holds.symm.trans there
        simp only [System.goto,update_self]
        exact ⟨runs,marked⟩
      intro none_
      exact absurd (holds.symm.trans none_) (some_ne_none p)
  · cases wakes

lemma exitCleanup_refines (refines : Refines f s) (at_ : f.pc p = .exitCleanup parent)
    (did : advance f p view = some after) : Refines after s := by
  obtain ⟨holds,runs,exitcode,marked,exits⟩ := refines.holds at_ rfl
  simp only [advance,at_,some.injEq] at did
  subst did
  have pid : (f.procs.proc p).pid = (s.procs.proc p).pid := by simp [marked,marked_proc]
  exact refines_inside refines holds at_ ⟨rfl,rfl⟩ rfl ⟨runs,exitcode,by rw [pid]; exact exits⟩

lemma wakeSome_update (ctl : ProcId → Ctl) (apart : q ≠ p) (parent : Option ProcId) :
    wakeSome (update ctl p .gone) parent q = wakeSome ctl parent q := by
  cases parent with
  | none => exact update_of_ne apart _ _
  | some r =>
    simp only [wakeSome,wake]
    by_cases here : q = r
    · subst here
      simp [apart]
    · simp [here,apart]

lemma wakeSome_gone (gone : ctl p = .gone) (parent : Option ProcId) : wakeSome ctl parent p = .gone := by
  cases parent with
  | none => exact gone
  | some r =>
    rcases wake_apply ctl r p with eq | ⟨_,_,_,asleep,_⟩
    · rw [wakeSome,eq,gone]
    · rw [gone] at asleep; cases asleep

lemma exitRelease_refines (refines : Refines f s) (at_ : f.pc p = .exitRelease parent)
    (did : advance f p view = some after) : ∃ t, Transition.Reached step Transition.Free s t ∧ Refines after t := by
  obtain ⟨holds,runs,exitcode,exits⟩ := refines.holds at_ rfl
  simp only [advance,at_] at did
  have exit : step s (.exit p exitcode) =
      some {s with procs := f.procs,ctl := wakeSome (update s.ctl p .gone) parent} := by
    simp [step,runs,exits]
  refine ⟨_,.next .initial trivial exit,refines_release refines (by rw [at_]; exact ⟨rfl,rfl⟩) rfl rfl ?_ ?_ did⟩
  · intro q apart
    simp only [ctlNow,holds,at_,Pc.signalled]
    exact wakeSome_update s.ctl apart parent
  simp only [wakeSome_gone (update_self p .gone s.ctl) parent]
  rfl

lemma answered_section (event : Event) (answered : step s event = some {s.setCtl p .user with procs := procs}) :
    Section s procs p .waitRelease := ⟨event,_,answered,rfl,rfl,rfl⟩

section
variable (refines : Refines f s)
include refines

lemma waitFind_refines (at_ : f.pc p = .waitFind pid status)
    (did : advance f p view = some after) : Refines after s := by
  obtain ⟨holds,runs,eq⟩ := refines.holds at_ rfl
  simp only [advance,at_] at did
  have call : step s (.wait p pid status 0 view) =
      s.answer p status (sysWaitpid s.procs p pid status 0 view) := by simp [step,runs]
  rcases sysWaitpid_cases s.procs p pid status 0 view with
    ⟨no,_⟩ | ⟨_,hit,_⟩ | ⟨_,hit,fails⟩ | ⟨child,_,hit,stranger,fails⟩ | ⟨child,_,hit,own,_⟩
  · exact absurd rfl no
  · simp [eq,hit] at did
  · simp only [eq,hit,some.injEq] at did
    subst did
    refine refines_inside refines holds at_ ⟨rfl,rfl⟩ rfl (answered_section (.wait p pid status 0 view) ?_)
    rw [call,fails,eq]
    rfl
  · simp only [eq,hit,ne_eq,stranger,not_false_eq_true,↓reduceIte,some.injEq] at did
    subst did
    refine refines_inside refines holds at_ ⟨rfl,rfl⟩ rfl (answered_section (.wait p pid status 0 view) ?_)
    rw [call,fails,eq]
    rfl
  simp only [eq,hit,ne_eq,own,not_true_eq_false,↓reduceIte,some.injEq] at did
  subst did
  exact refines_inside refines holds at_ ⟨rfl,rfl⟩ rfl ⟨eq,.inl ⟨runs,pid,hit,own⟩⟩

lemma waitTest_refines (at_ : f.pc p = .waitTest child status)
    (did : advance f p view = some after) : Refines after s := by
  obtain ⟨holds,eq,entered⟩ := refines.holds at_ rfl
  simp only [advance,at_,eq] at did
  cases exited : (s.procs.proc child).exit with
  | true =>
    simp only [exited,↓reduceIte,some.injEq] at did
    subst did
    exact refines_inside refines holds at_ ⟨rfl,rfl⟩ rfl ⟨eq,entered,exited⟩
  | false =>
    simp only [exited,Bool.false_eq_true,↓reduceIte,some.injEq] at did
    subst did
    exact refines_inside refines holds at_ ⟨rfl,rfl⟩ rfl ⟨eq,entered,exited⟩

lemma waitCopy_refines (at_ : f.pc p = .waitCopy child status)
    (did : advance f p view = some after) : Refines after s := by
  obtain ⟨holds,eq,entered,exited⟩ := refines.holds at_ rfl
  obtain ⟨event,answered⟩ := entered_step entered view
  simp only [advance,at_] at did
  cases copied : copyout view.random view.cpu status.toNat sizeofInt with
  | copied next =>
    simp only [copied,some.injEq] at did
    subst did
    refine refines_inside refines holds at_ ⟨rfl,rfl⟩ rfl (answered_section event ?_)
    rw [answered,eq]
    simp [waitChild,exited,copied,State.answer]
  | error errno =>
    simp only [copied,some.injEq] at did
    subst did
    refine refines_inside refines holds at_ ⟨rfl,rfl⟩ rfl (answered_section event ?_)
    rw [answered,eq]
    simp only [waitChild,exited,copied,State.answer,↓reduceIte]
    rfl
  | exits => simp [copied] at did
  | assertion => simp [copied] at did

lemma waitChannel_refines (at_ : f.pc p = .waitChannel child status)
    (did : advance f p view = some after) : Refines after s := by
  obtain ⟨holds,entered⟩ := refines.holds at_ rfl
  simp only [advance,at_] at did
  unfold wchanLock at did
  split at did
  · cases did
    refine ⟨refines.next,?_,?_,?_,?_,?_⟩
    · intro c
      have pre := refines.threads c
      simp only [System.goto]
      grind [Pc.sleeping]
    · intro c
      have pre := refines.locks c
      simp only [System.goto]
      grind [Pc.locking]
    · intro q other
      have apart : q ≠ p := fun eq => other (eq ▸ holds)
      have pre := refines.others q other
      simp only [ctlNow,holds,System.goto,update_self,update_of_ne apart,at_] at pre ⊢
      exact pre
    · intro q there
      cases holds.symm.trans there
      simp only [System.goto,update_self]
      exact entered
    intro none_
    exact absurd (holds.symm.trans none_) (some_ne_none p)
  · cases did

lemma waitUnlock_refines (at_ : f.pc p = .waitUnlock child status) (did : advance f p view = some after) :
    ∃ t, Transition.Reached step Transition.Free s t ∧ Refines after t := by
  obtain ⟨holds,eq,entered,living⟩ := refines.holds at_ rfl
  obtain ⟨event,answered⟩ := entered_step entered view
  have sleeps : step s event = some (s.setCtl p (.waiting child status true)) := by
    rw [answered]
    simp [waitChild,living,State.answer]
  simp only [advance,at_] at did
  refine ⟨_,.next .initial trivial sleeps,refines_release refines (by rw [at_]; exact ⟨rfl,rfl⟩) eq.symm rfl ?_ ?_ did⟩
  · intro q apart
    rw [ctlNow_silent holds (by rw [at_]; rfl)]
    simp [apart]
  rw [setCtl_ctl,if_pos rfl]
  rfl

lemma waitRelease_refines (at_ : f.pc p = .waitRelease) (did : advance f p view = some after) :
    ∃ t, Transition.Reached step Transition.Free s t ∧ Refines after t := by
  obtain ⟨holds,event,t,answered,procs,ctl,next⟩ := refines.holds at_ rfl
  simp only [advance,at_] at did
  refine ⟨t,.next .initial trivial answered,
    refines_release refines (by rw [at_]; exact ⟨rfl,rfl⟩) procs next ?_ ?_ did⟩
  · intro q apart
    rw [ctlNow_silent holds (by rw [at_]; rfl),ctl,update_of_ne apart]
  rw [ctl,update_self]
  rfl

lemma waitSleep_refines (at_ : f.pc p = .waitSleep child status)
    (did : advance f p view = some after) : Refines after s := by
  obtain ⟨out,_⟩ := refines.outside at_ id
  simp only [advance,at_] at did
  unfold wchanSleep at did
  split at did
  · cases did
    have alone : f.wcThreads p = [] := by rw [refines.threads,at_]; rfl
    refine refines_outside refines out (by rw [at_]; rfl) ?_ ?_
    · intro c
      by_cases here : c = p
      · subst here
        simp only [update_self,alone]
        rfl
      · simpa only [update_of_ne here] using refines.threads c
    intro c
    by_cases here : c = p
    · subst here
      simp only [update_self]
      rfl
    · simpa only [update_of_ne here] using refines.locks c
  · cases did

lemma start_refines (at_ : f.pc p = pc) (did : lockAcquire f p target = some after) (out : ¬ Section s f.procs p pc)
    (alike : Alike pc target) (silent : target.signalled = none)
    (entered : pc.ctl = some (s.ctl p) → Section s s.procs p target) : Refines after s := by
  subst at_
  obtain ⟨_,agrees⟩ := refines.outside rfl out
  refine refines_acquire refines alike silent (fun free => entered ?_) did
  rwa [ctlNow_free free] at agrees

lemma advance_refines (did : advance f p view = some after) :
    ∃ t, Transition.Reached step Transition.Free s t ∧ Refines after t := by
  cases at_ : f.pc p with
  | exitStart exitcode =>
    simp only [advance,at_] at did
    refine ⟨s,.initial,start_refines refines at_ did id ⟨rfl,rfl⟩ rfl fun agrees => ⟨?_,rfl⟩⟩
    exact (some.inj agrees).symm
  | exitTest exitcode => exact ⟨s,.initial,exitTest_refines refines at_ did⟩
  | exitSignal parent => exact ⟨s,.initial,exitSignal_refines refines at_ did⟩
  | exitCleanup parent => exact ⟨s,.initial,exitCleanup_refines refines at_ did⟩
  | exitRelease parent => exact exitRelease_refines refines at_ did
  | waitStart pid status =>
    simp only [advance,at_] at did
    refine ⟨s,.initial,start_refines refines at_ did id ⟨rfl,rfl⟩ rfl fun agrees => ⟨?_,rfl⟩⟩
    exact (some.inj agrees).symm
  | waitFind pid status => exact ⟨s,.initial,waitFind_refines refines at_ did⟩
  | waitTest child status => exact ⟨s,.initial,waitTest_refines refines at_ did⟩
  | waitChannel child status => exact ⟨s,.initial,waitChannel_refines refines at_ did⟩
  | waitUnlock child status => exact waitUnlock_refines refines at_ did
  | waitSleep child status => exact ⟨s,.initial,waitSleep_refines refines at_ did⟩
  | woken child status =>
    simp only [advance,at_] at did
    refine ⟨s,.initial,start_refines refines at_ did id ⟨rfl,rfl⟩ rfl fun agrees => ⟨rfl,.inr ?_⟩⟩
    exact (some.inj agrees).symm
  | waitCopy child status => exact ⟨s,.initial,waitCopy_refines refines at_ did⟩
  | waitRelease => exact waitRelease_refines refines at_ did
  | absent | user | gone | asleep _ _ => simp [advance,at_] at did

lemma Refines.made (ok : Valid s) (free : f.globalMutex = none)
    (runs : f.pc p = .user) : s.ctl p = .user ∧ p < s.next := by
  have agrees := refines.others p (by rw [free]; nofun)
  rw [runs,ctlNow_free free] at agrees
  have user : s.ctl p = .user := (some.inj agrees).symm
  exact ⟨user,ok.made (ok.running user).1⟩

end

lemma forked_procs (s : State) (maker : Option ProcId) :
    (State.forked ⟨s.procs,fun _ => .unused,fun _ => none,s.next⟩ maker).procs = (s.forked maker).procs := by
  cases maker <;> rfl

lemma create_refines (ok : Valid s) (refines : Refines f s)
    (may : ∀ p, maker = some p → f.pc p = .user ∧ checkProcLimit f.procs = false)
    (did : create f maker = some after) : ∃ t, Transition.Reached step Transition.Free s t ∧ Refines after t := by
  unfold create at did
  split at did
  · rename_i room
    obtain ⟨free,inside⟩ := room
    cases did
    have eq := refines.free free
    have path : Transition.Reached step Transition.Free s (s.forked maker) := by
      rw [eq] at inside
      cases maker with
      | none => exact spawned_reached inside
      | some p =>
        obtain ⟨runs,limit⟩ := may p rfl
        obtain ⟨user,made⟩ := refines.made ok free runs
        exact forked_reached user made (eq ▸ limit) inside
    have absent : (f.pc f.next).ctl = some .unused := by
      have agrees := refines.others f.next (by rw [free]; nofun)
      rwa [ctlNow_free free,refines.next,ok.fresh s.next le_rfl,←refines.next] at agrees
    have idle : Alike (f.pc f.next) .user := by
      generalize f.pc f.next = pc at absent
      cases pc <;> first | exact ⟨rfl,rfl⟩ | cases absent
    refine ⟨s.forked maker,path,congrArg (·+1) refines.next,alike_threads refines idle,
      alike_locks refines idle,?_,?_,?_⟩
    · intro q _
      have pre := refines.others q (by rw [free]; nofun)
      rw [ctlNow_free free] at pre
      rw [ctlNow_free (by exact free)]
      simp only [System.goto,State.forked,←refines.next]
      by_cases here : q = f.next
      · subst here
        rw [update_self,update_self]
        rfl
      rw [update_of_ne here,update_of_ne here]
      exact pre
    · intro q holds
      exact absurd (free.symm.trans holds).symm (some_ne_none q)
    intro _
    simp only [eq,refines.next]
    exact forked_procs s maker
  · cases did

lemma call_refines (refines : Refines f s) (runs : f.pc p = .user) (alike : Alike .user pc)
    (calls : pc.ctl = some .user) : Refines (f.goto p pc) s := by
  obtain ⟨out,_⟩ := refines.outside runs id
  exact refines_outside refines out (by rw [runs,calls]; rfl)
    (alike_threads refines (runs ▸ alike)) (alike_locks refines (runs ▸ alike))

lemma move_refines (reached : Reached Transition.Free s) (refines : Refines f s) (did : move f action = some after) :
    ∃ t, Transition.Reached step Transition.Free s t ∧ Refines after t := by
  have ok := reached_valid reached
  cases action with
  | spawn =>
    refine create_refines ok refines ?_ (show create f none = some after from did)
    intro _ eq
    cases eq
  | fork p =>
    simp only [move] at did
    split at did
    · rename_i may
      refine create_refines ok refines ?_ did
      intro q eq
      cases eq
      exact may
    · cases did
  | exit p exitcode =>
    simp only [move] at did
    split at did
    · rename_i runs
      cases did
      exact ⟨s,.initial,call_refines refines runs ⟨rfl,rfl⟩ rfl⟩
    · cases did
  | waitpid p pid status =>
    simp only [move] at did
    split at did
    · rename_i runs
      cases did
      exact ⟨s,.initial,call_refines refines runs ⟨rfl,rfl⟩ rfl⟩
    · cases did
  | advance p view => exact advance_refines refines did

lemma system_refines (path : SystemReached f) : ∃ s, Reached Transition.Free s ∧ Refines f s :=
  Transition.Reached.simulated Refines path boot_refines fun reached refines did => move_refines reached refines did

theorem no_lost_wakeup (path : SystemReached f) (free : f.globalMutex = none)
    (queued : p ∈ f.wcThreads c) :
    c = p ∧ ∃ child status, f.pc p = .asleep child status ∧ (f.procs.proc child).exit = false := by
  obtain ⟨s,reached,refines⟩ := system_refines path
  rw [refines.threads c] at queued
  split at queued
  · rename_i sleeps
    have self := List.mem_singleton.mp queued
    subst self
    obtain ⟨child,status,asleep⟩ := sleeping_pc sleeps
    refine ⟨rfl,child,status,asleep,?_⟩
    have agrees := refines.others p (by rw [free]; nofun)
    rw [asleep,ctlNow_free free] at agrees
    have waits := (reached_valid reached).waiting p child status true (some.inj agrees).symm
    rw [refines.free free]
    by_contra exited
    exact absurd (waits.2.2 (by simpa using exited)) (by decide)
  · cases queued

def vigil : List Action :=
  [.spawn,.fork 0,.waitpid 0 3 0x10000000]++List.replicate 6 (.advance 0 smallView)

theorem vigil_not_lost : ∃ f, SystemReached f ∧ f.globalMutex = none ∧ 0 ∈ f.wcThreads 0 ∧
    ∃ child status, f.pc 0 = .asleep child status ∧ (f.procs.proc child).exit = false := by
  have facts : (Transition.run move boot vigil).map (fun f => (f.globalMutex,f.wcThreads 0)) =
    some (none,[0]) := by decide
  obtain ⟨f,ran,both⟩ := map_eq_some_iff.mp facts
  obtain ⟨free,queue⟩ := Prod.mk.inj both
  have path : SystemReached f := Transition.run_reached ran
  have queued : 0 ∈ f.wcThreads 0 := by rw [queue]; exact List.mem_singleton_self 0
  exact ⟨f,path,free,queued,(no_lost_wakeup path free queued).2⟩
end ToyOS.WaitChannels
