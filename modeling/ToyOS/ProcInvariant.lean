import ToyOS.ProcSteps

namespace ToyOS.ProcMachine
open Function ProcTable WaitStatus UserCopy Option

-- Made by proc_create and not yet running.
def Ctl.embryo : Ctl → Bool
  | .unlisted | .listed | .parented => true
  | _ => false

def Ctl.present : Ctl → Bool
  | .unused | .unlisted | .gone => false
  | _ => true

def Ctl.idle : Ctl → Bool
  | .user | .checked | .waiting _ _ _ => true
  | _ => false

def WaitsFor (s : State) (p child : ProcId) (asleep : Bool) : Prop :=
  Listed s.procs child ∧ (s.procs.proc child).parentPid = (s.procs.proc p).pid ∧
    ((s.procs.proc child).exit = true → asleep = false)

-- What holds between any two critical sections of proc.c, whoever runs next.
structure Valid (s : State) : Prop where
  table : TableValid s.procs
  bound : s.procs.currentLargestPid ≤ pidMax
  fresh : ∀ n, s.next ≤ n → s.ctl n = .unused
  present : ∀ p, (s.ctl p).present = true → Listed s.procs p ∧ (s.procs.proc p).exit = false
  listed : ∀ p, Listed s.procs p → (s.ctl p).present = true ∨
    (s.ctl p = .gone ∧ (s.procs.proc p).exit = true)
  making : ∀ p new, s.ctl p = .making new → s.maker new = some p ∧ (s.ctl new).embryo = true
  maker : ∀ new p, (s.ctl new).embryo = true → s.maker new = some p → s.ctl p = .making new
  parent : ∀ p, Listed s.procs p → (s.procs.proc p).parentPid = -1 ∨
    (pidMin ≤ (s.procs.proc p).parentPid ∧ (s.procs.proc p).parentPid ≤ pidMax)
  dummy : ∀ new, s.ctl new = .unlisted ∨ s.ctl new = .listed →
    (s.procs.proc new).parentPid = -1 ∧ (s.procs.proc new).exit = false
  parented : ∀ new, s.ctl new = .parented → ∃ p, s.maker new = some p ∧
    (s.procs.proc new).parentPid = (s.procs.proc p).pid
  waiting : ∀ p child status asleep, s.ctl p = .waiting child status asleep → WaitsFor s p child asleep

lemma initial_valid : Valid initial := by
  refine ⟨procBootstrap_valid,by decide,fun _ _ => rfl,?_,?_,?_,?_,?_,?_,?_,?_⟩
  · intro p there; cases there
  · intro p listed; obtain ⟨i,hit⟩ := listed; cases hit
  · intro p new made; cases made
  · intro new p made; cases made
  · intro p listed; obtain ⟨i,hit⟩ := listed; cases hit
  · intro new made; rcases made with made | made <;> cases made
  · intro new made; cases made
  · intro p child status asleep held; cases held

lemma Valid.same (ok : Valid s) (one : Listed s.procs p) (two : Listed s.procs q)
    (pids : (s.procs.proc p).pid = (s.procs.proc q).pid) : p = q :=
  ok.table.same one two pids

lemma Valid.zombie_gone (ok : Valid s) (listed : Listed s.procs p)
    (exited : (s.procs.proc p).exit) : s.ctl p = .gone := by
  rcases ok.listed p listed with hit | ⟨gone,_⟩
  · have living := (ok.present p hit).2
    rw [exited] at living
    cases living
  · exact gone

lemma Valid.running (ok : Valid s) (runs : s.ctl p = .user) : Listed s.procs p ∧ (s.procs.proc p).exit = false :=
  ok.present p (by rw [runs]; rfl)

attribute [grind =] Ctl.present Ctl.embryo WaitsFor

@[simp,grind =] lemma setCtl_procs (s : State) (p : ProcId) (c : Ctl) : (s.setCtl p c).procs = s.procs := rfl
@[simp,grind =] lemma setCtl_maker (s : State) (p : ProcId) (c : Ctl) : (s.setCtl p c).maker = s.maker := rfl
@[simp] lemma setCtl_next (s : State) (p : ProcId) (c : Ctl) : (s.setCtl p c).next = s.next := rfl
@[simp,grind =] lemma setCtl_ctl (s : State) (p q : ProcId) (c : Ctl) :
    (s.setCtl p c).ctl q = if q = p then c else s.ctl q := by
  simp [State.setCtl,update_apply]

lemma spawned_reached (lt : lowestFree s.procs < maxProc) :
    Transition.Reached step Transition.Free s (s.forked none) := by
  let s1 := s.create none
  let s2 : State := {s1.setCtl s.next .listed with procs := addToActiveProcList s1.procs s.next}
  have free : lowestFree s1.procs = lowestFree s.procs := rfl
  have t1 : step s (.create none) = some s1 := rfl
  have t2 : step s1 (.list s.next) = some s2 := by
    have unlisted : s1.ctl s.next = .unlisted := by simp [s1,State.create]
    simp [step,unlisted,free,lt,s2]
  have t3 : step s2 (.start s.next) = some (s.forked none) := by
    simp [step,s2,s1,State.forked,State.setCtl,State.create]
  exact .next (.next (.next .initial trivial t1) trivial t2) trivial t3

lemma forked_reached (runs : s.ctl p = .user) (made : p < s.next) (room : checkProcLimit s.procs = false)
    (lt : lowestFree s.procs < maxProc) : Transition.Reached step Transition.Free s (s.forked (some p)) := by
  have apart : p ≠ s.next := ne_of_lt made
  let s1 := s.setCtl p .checked
  let s2 := (s1.setCtl p (.making s1.next)).create (some p)
  let s3 : State := {s2.setCtl s.next .listed with procs := addToActiveProcList s2.procs s.next}
  let s4 : State := {s3.setCtl s.next .parented with
    procs := s3.procs.set s.next {s3.procs.proc s.next with parentPid := (s3.procs.proc p).pid}}
  have free : lowestFree s2.procs = lowestFree s.procs := rfl
  have t1 : step s (.check p) = some s1 := by simp [step,runs,room,s1]
  have t2 : step s1 (.create (some p)) = some s2 := by simp [step,s1,s2]
  have t3 : step s2 (.list s.next) = some s3 := by
    have unlisted : s2.ctl s.next = .unlisted := by simp [s2,s1,State.create]
    simp [step,unlisted,free,lt,s3]
  have t4 : step s3 (.adopt s.next) = some s4 := by
    have listed : s3.ctl s.next = .listed := by simp [s3]
    have maker : s3.maker s.next = some p := by simp [s3,s2,s1,State.create]
    simp [step,listed,maker,s4]
  have ctl : ((s4.setCtl s.next .user).setCtl p .user).ctl = update s.ctl s.next .user := by
    funext q
    by_cases new : q = s.next
    · simp [new]
    by_cases old : q = p
    · simp [old,apart,runs]
    · simp [s4,s3,s2,s1,State.create,State.setCtl,new,old]
  have t5 : step s4 (.start s.next) = some (s.forked (some p)) := by
    have parented : s4.ctl s.next = .parented := by simp [s4]
    have maker : s4.maker s.next = some p := by simp [s4,s3,s2,s1,State.create]
    have started : step s4 (.start s.next) = some ((s4.setCtl s.next .user).setCtl p .user) := by
      simp [step,parented,maker]
    rw [started]
    exact congrArg some (by unfold State.forked; rw [←ctl]; rfl)
  exact .next (.next (.next (.next (.next .initial trivial t1) trivial t2) trivial t3) trivial t4) trivial t5

lemma idle_cases {c : Ctl} (idle : c.idle) : c.present ∧ c.embryo = false ∧ ∀ new, c ≠ .making new := by
  cases c <;> simp_all [Ctl.idle,Ctl.present,Ctl.embryo]

lemma valid_setCtl (ok : Valid s) (was : (s.ctl p).idle) (now : c.idle)
    (child : ∀ child status asleep, c = .waiting child status asleep → WaitsFor s p child asleep) :
    Valid (s.setCtl p c) := by
  obtain ⟨hit,_,notMaking⟩ := idle_cases was
  obtain ⟨thereNow,notEmbryo,notMakingNow⟩ := idle_cases now
  refine ⟨ok.table,ok.bound,?_,?_,?_,?_,?_,ok.parent,?_,?_,?_⟩
  · intro n new
    have unused := ok.fresh n new
    have ne : n ≠ p := by
      intro eq
      rw [←eq,unused] at hit
      cases hit
    simpa [ne] using unused
  · intro q
    have pre := ok.present q
    have self := ok.present p hit
    grind
  · intro q
    have pre := ok.listed q
    grind
  · intro q new
    have pre := ok.making q new
    have apart := ok.making q p
    grind
  · intro new q
    have pre := ok.maker new q
    grind
  · intro new
    have pre := ok.dummy new
    grind
  · intro new
    have pre := ok.parented new
    grind
  intro q held status asleep
  have pre := ok.waiting q held status asleep
  grind

def State.claim (s : State) : Option ProcId → State
  | none => s
  | some p => s.setCtl p (.making s.next)

@[grind =] lemma claim_create_ctl (s : State) (maker : Option ProcId) (q : ProcId) :
    ((s.claim maker).create maker).ctl q =
      if q = s.next then .unlisted else if maker = some q then .making s.next else s.ctl q := by
  cases maker with
  | none => simp [State.claim,State.create,update_apply]
  | some p => simp [State.claim,State.create,update_apply,State.setCtl,eq_comm]

@[grind =] lemma claim_create_proc (s : State) (maker : Option ProcId) (q : ProcId) :
    ((s.claim maker).create maker).procs.proc q = if q = s.next then newProc else s.procs.proc q := by
  cases maker <;> simp [State.claim,State.create,update_apply]

@[grind =] lemma claim_create_maker (s : State) (maker : Option ProcId) (q : ProcId) :
    ((s.claim maker).create maker).maker q = if q = s.next then maker else s.maker q := by
  cases maker <;> simp [State.claim,State.create,update_apply]

@[grind =] lemma claim_create_listed (s : State) (maker : Option ProcId) (q : ProcId) :
    Listed ((s.claim maker).create maker).procs q ↔ Listed s.procs q := by
  cases maker <;> rfl

section
variable (ok : Valid s)
include ok

lemma Valid.unlisted (miss : (s.ctl p).present = false) (living : s.ctl p ≠ .gone) : ¬ Listed s.procs p := by
  intro listed
  rcases ok.listed p listed with hit | ⟨dead,_⟩
  · rw [miss] at hit; cases hit
  · exact living dead

lemma valid_create (maker : Option ProcId) (passed : ∀ p, maker = some p → s.ctl p = .checked) :
    Valid ((s.claim maker).create maker) := by
  have unused := ok.fresh s.next le_rfl
  have fresh : ¬ Listed s.procs s.next := ok.unlisted (by simp [unused,Ctl.present]) (by simp [unused])
  refine ⟨?_,?_,?_,?_,?_,?_,?_,?_,?_,?_,?_⟩
  · refine ⟨?_,?_,?_,?_⟩
    · cases maker <;> exact ok.table.low
    · cases maker <;> exact ok.table.above
    · cases maker <;> exact ok.table.below
    intro i q found
    have pre : s.procs.activeProcList i = some q := by cases maker <;> exact found
    have ne : q ≠ s.next := fun eq => fresh ⟨i,eq ▸ pre⟩
    rw [claim_create_proc]
    simpa [ne] using ok.table.self i q pre
  · cases maker <;> exact ok.bound
  · intro n above
    have later : s.next+1 ≤ n := by cases maker <;> exact above
    have pre := ok.fresh n (Nat.le_of_succ_le later)
    grind
  · intro q
    have pre := ok.present q
    grind
  · intro q
    have pre := ok.listed q
    grind
  · intro q new
    have pre := ok.making q new
    grind
  · intro new q
    have pre := ok.maker new q
    grind
  · intro q
    have pre := ok.parent q
    grind
  · intro new
    have pre := ok.dummy new
    grind [newProc]
  · intro new
    have pre := ok.parented new
    have making := ok.maker new
    grind
  intro q child status asleep
  have pre := ok.waiting q child status asleep
  have here := ok.present q
  grind

lemma valid_list (made : s.ctl new = .unlisted) (lt : lowestFree s.procs < maxProc) :
    Valid {s.setCtl new .listed with procs := addToActiveProcList s.procs new} := by
  have miss : ¬ Listed s.procs new := ok.unlisted (by simp [made,Ctl.present]) (by simp [made])
  have young := ok.dummy new (.inl made)
  have enlisted : ∀ q, Listed (addToActiveProcList s.procs new) q ↔ q = new ∨ Listed s.procs q :=
    fun q => listed_add ok.table
  have record : ∀ q, (addToActiveProcList s.procs new).proc q =
      if q = new then {s.procs.proc new with pid := lowestFree s.procs} else s.procs.proc q := by
    intro q
    rw [add_proc,update_apply]
  refine ⟨add_valid ok.table miss,?_,?_,?_,?_,?_,?_,?_,?_,?_,?_⟩
  · simp only [add_largest]
    unfold maxProc at lt
    unfold pidMax
    exact max_le ok.bound (by omega)
  · intro n above
    have pre := ok.fresh n above
    grind
  · intro q
    have pre := ok.present q
    grind
  · intro q
    have pre := ok.listed q
    grind
  · intro q child
    have pre := ok.making q child
    grind
  · intro child q
    have pre := ok.maker child q
    have self := ok.maker new q
    grind
  · intro q
    have pre := ok.parent q
    grind
  · intro child
    have pre := ok.dummy child
    grind
  · intro child
    have pre := ok.parented child
    have making := ok.maker child
    grind
  intro q child status asleep
  have pre := ok.waiting q child status asleep
  grind

lemma Valid.maker_present (made : (s.ctl new).embryo)
    (by_ : s.maker new = some p) : s.ctl p = .making new ∧ Listed s.procs p ∧ p ≠ new := by
  have making := ok.maker new p made by_
  refine ⟨making,(ok.present p (by simp [making,Ctl.present])).1,?_⟩
  intro eq
  rw [eq] at making
  simp [making,Ctl.embryo] at made

lemma valid_adopt (made : s.ctl new = .listed) (by_ : s.maker new = some p) : Valid {s.setCtl new .parented with
      procs := s.procs.set new {s.procs.proc new with parentPid := (s.procs.proc p).pid}} := by
  obtain ⟨making,listed,apart⟩ := ok.maker_present (by simp [made,Ctl.embryo]) by_
  have young := ok.dummy new (.inr made)
  have range := ok.table.pid_bounds listed
  have largest := ok.bound
  have record : ∀ q, (s.procs.set new {s.procs.proc new with parentPid := (s.procs.proc p).pid}).proc q =
      if q = new then {s.procs.proc new with parentPid := (s.procs.proc p).pid} else s.procs.proc q := by
    intro q
    simp only [Procs.set,update_apply]
  have enlisted : ∀ q, Listed (s.procs.set new {s.procs.proc new with
      parentPid := (s.procs.proc p).pid}) q ↔ Listed s.procs q := fun q => Iff.rfl
  refine ⟨set_valid ok.table rfl,ok.bound,?_,?_,?_,?_,?_,?_,?_,?_,?_⟩
  · intro n above
    have pre := ok.fresh n above
    grind
  · intro q
    have pre := ok.present q
    grind
  · intro q
    have pre := ok.listed q
    grind
  · intro q child
    have pre := ok.making q child
    grind
  · intro child q
    have pre := ok.maker child q
    grind
  · intro q
    have pre := ok.parent q
    grind
  · intro child
    have pre := ok.dummy child
    grind
  · intro child
    have pre := ok.parented child
    have maker := ok.maker child
    grind
  intro q child status asleep
  have pre := ok.waiting q child status asleep
  have own := ok.present q
  have slot := ok.table.pid_bounds (s := s.procs) (p := q)
  grind [pidMin]

end

-- `new` goes on as `c` and its maker, if it has one, returns to user mode.
def State.settle (s : State) (new : ProcId) (c : Ctl) : State :=
  {s with ctl := fun q => if q = new then c else if s.maker new = some q then .user else s.ctl q}

@[simp,grind =] lemma settle_procs (s : State) (new : ProcId) (c : Ctl) : (s.settle new c).procs = s.procs := rfl
@[simp,grind =] lemma settle_maker (s : State) (new : ProcId) (c : Ctl) : (s.settle new c).maker = s.maker := rfl
@[simp,grind =] lemma settle_ctl (s : State) (new q : ProcId) (c : Ctl) :
    (s.settle new c).ctl q = if q = new then c else if s.maker new = some q then .user else s.ctl q := rfl

lemma settle_spawned {s : State} (by_ : s.maker new = none) : s.setCtl new c = s.settle new c := by
  simp only [State.setCtl,State.settle,by_]
  congr
  funext q
  simp [update_apply]

lemma settle_forked {s : State} (by_ : s.maker new = some p) (apart : p ≠ new) :
    (s.setCtl new c).setCtl p .user = s.settle new c := by
  simp only [State.setCtl,State.settle,by_]
  congr
  funext q
  by_cases here : q = new
  · subst here; simp [Ne.symm apart]
  · simp [update_apply,here,eq_comm]

section
variable (ok : Valid s)
include ok

lemma valid_start (made : (s.ctl new).embryo) (hit : (s.ctl new).present) : Valid (s.settle new .user) := by
  refine ⟨ok.table,ok.bound,?_,?_,?_,?_,?_,ok.parent,?_,?_,?_⟩
  · intro n above
    have pre := ok.fresh n above
    have maker := ok.maker new n made
    grind
  · intro q
    have pre := ok.present q
    have maker := ok.maker new q made
    grind
  · intro q
    have pre := ok.listed q
    grind
  · intro q child
    have pre := ok.making q child
    have maker := ok.maker new child made
    grind
  · intro child q
    have pre := ok.maker child q
    have maker := ok.maker new q made
    grind
  · intro child
    have pre := ok.dummy child
    grind
  · intro child
    have pre := ok.parented child
    grind
  intro q child status asleep
  have pre := ok.waiting q child status asleep
  grind

lemma Valid.unwaited (made : s.ctl new = .listed ∨ s.ctl new = .parented)
    (held : s.ctl q = .waiting child status asleep) : child ≠ new := by
  rintro rfl
  obtain ⟨_,parent,_⟩ := ok.waiting q child status asleep held
  have waiter := (ok.present q (by simp [held,Ctl.present])).1
  rcases made with made | made
  · have range := (ok.table.pid_bounds waiter).1
    rw [←parent,(ok.dummy child (.inr made)).1] at range
    exact absurd range (by decide)
  obtain ⟨p,by_,pids⟩ := ok.parented child made
  obtain ⟨making,maker,_⟩ := ok.maker_present (by simp [made,Ctl.embryo]) by_
  cases ok.same maker waiter (pids.symm.trans parent)
  rw [making] at held
  cases held

lemma valid_fail (made : s.ctl new = .listed ∨ s.ctl new = .parented) :
    Valid {s.settle new .gone with procs := procDestroy s.procs new} := by
  have embryo : (s.ctl new).embryo := by rcases made with made | made <;> simp [made,Ctl.embryo]
  have there : (s.ctl new).present := by rcases made with made | made <;> simp [made,Ctl.present]
  obtain ⟨listed,living⟩ := ok.present new there
  have enlisted : ∀ q, Listed (procDestroy s.procs new) q ↔ Listed s.procs q ∧ q ≠ new :=
    fun q => listed_destroy ok.table listed
  have record : (procDestroy s.procs new).proc = s.procs.proc := rfl
  obtain ⟨i,hit⟩ := listed
  refine ⟨destroy_valid ok.table hit,le_trans destroy_largest ok.bound,?_,?_,?_,?_,?_,?_,?_,?_,?_⟩
  · intro n above
    have pre := ok.fresh n above
    have maker := ok.maker new n embryo
    grind
  · intro q
    have pre := ok.present q
    have maker := ok.maker new q embryo
    grind
  · intro q
    have pre := ok.listed q
    grind
  · intro q child
    have pre := ok.making q child
    have maker := ok.maker new child embryo
    grind
  · intro child q
    have pre := ok.maker child q
    have maker := ok.maker new q embryo
    grind
  · intro q
    have pre := ok.parent q
    grind
  · intro child
    have pre := ok.dummy child
    grind
  · intro child
    have pre := ok.parented child
    grind
  intro q child status asleep
  have pre := ok.waiting q child status asleep
  have ne : s.ctl q = .waiting child status asleep → child ≠ new := ok.unwaited made
  grind

lemma Valid.waits_parent (held : s.ctl q = .waiting child status asleep)
    (listed : Listed s.procs p) (pids : (s.procs.proc child).parentPid = (s.procs.proc p).pid) : q = p := by
  have waiter := (ok.present q (by simp [held,Ctl.present])).1
  exact ok.same waiter listed ((ok.waiting q child status asleep held).2.1.symm.trans pids)

lemma valid_exitAlone (runs : s.ctl p = .user) (alone : (s.procs.proc p).parentPid = -1 ∨
      ∀ q, s.procs.activeProcList (s.procs.proc p).parentPid = some q → (s.procs.proc q).exit) : Valid {s with
      procs := procDestroy (exitedChildrenCleanup s.procs (s.procs.proc p).pid) p
      ctl := update s.ctl p .gone} := by
  obtain ⟨listed,living⟩ := ok.running runs
  have cleaned : TableValid (exitedChildrenCleanup s.procs (s.procs.proc p).pid) := cleanup_valid ok.table
  have kept := cleanup_keeps ok.table listed living (s.procs.proc p).pid
  have enlisted : ∀ q, Listed (procDestroy (exitedChildrenCleanup s.procs (s.procs.proc p).pid) p) q ↔
      (Listed s.procs q ∧ exitedChild (s.procs.proc p).pid (s.procs.proc q) = false) ∧ q ≠ p := by
    intro q
    rw [listed_destroy cleaned kept,listed_cleanup ok.table]
  have record : (procDestroy (exitedChildrenCleanup s.procs (s.procs.proc p).pid) p).proc = s.procs.proc :=
    cleanup_proc ok.table
  -- A waiter for `p` would be a living parent at its parent_pid.
  have unwaited : ∀ q status asleep, s.ctl q ≠ .waiting p status asleep := by
    intro q status asleep held
    obtain ⟨waiter,awake⟩ := ok.present q (by simp [held,Ctl.present])
    have parent := (ok.waiting q p status asleep held).2.1
    rcases alone with dummy | dead
    · have range := (ok.table.pid_bounds waiter).1
      rw [←parent,dummy] at range
      exact absurd range (by decide)
    have exited := dead q (parent ▸ ok.table.slot waiter)
    rw [awake] at exited
    cases exited
  obtain ⟨i,hit⟩ := kept
  refine ⟨destroy_valid cleaned hit,?_,?_,?_,?_,?_,?_,?_,?_,?_,?_⟩
  · exact le_trans destroy_largest (le_trans (cleanup_largest ok.table) ok.bound)
  · intro n above
    have pre := ok.fresh n above
    grind
  · intro q
    have pre := ok.present q
    grind [exitedChild]
  · intro q
    have pre := ok.listed q
    grind
  · intro q child
    have pre := ok.making q child
    grind
  · intro child q
    have pre := ok.maker child q
    grind
  · intro q
    have pre := ok.parent q
    grind
  · intro child
    have pre := ok.dummy child
    grind
  · intro child
    have pre := ok.parented child
    grind
  intro q child status asleep held
  have pre : s.ctl q = .waiting child status asleep := by grind
  have waits := ok.waiting q child status asleep pre
  have parent := ok.waits_parent pre listed
  grind [exitedChild]

end

lemma waitChild_cases (s : Procs) (child : ProcId) (status : BitVec 32) (view : View) :
    ((s.proc child).exit = false ∧ waitChild s child status view = .sleep child) ∨ ((s.proc child).exit ∧
      ((Writable view.cpu status.toNat sizeofInt ∧
          waitChild s child status view = .reaped child (s.proc child).exitcode) ∨
        (HitsText view.cpu status.toNat sizeofInt ∧ waitChild s child status view = .panic) ∨
        (¬ Writable view.cpu status.toNat sizeofInt ∧ ¬ HitsText view.cpu status.toNat sizeofInt ∧
          waitChild s child status view = .error .efault))) := by
  cases exited : (s.proc child).exit with
  | false => exact .inl ⟨rfl,by simp [waitChild,exited]⟩
  | true =>
    refine .inr ⟨rfl,?_⟩
    rcases copyout_cases view.valid view.random status.isLt (by decide : 0 < sizeofInt) (by decide) with
      ⟨writable,next,copied⟩ | ⟨hits,exits⟩ | ⟨blocked,clear,bad⟩
    · exact .inl ⟨writable,by simp [waitChild,exited,copied]⟩
    · exact .inr (.inl ⟨hits,by simp [waitChild,exited,exits]⟩)
    · exact .inr (.inr ⟨blocked,clear,by simp [waitChild,exited,bad]⟩)

lemma waitChild_writable {s : Procs} {view : View} {status : BitVec 32}
    (exited : (s.proc child).exit) (writable : Writable view.cpu status.toNat sizeofInt) :
    waitChild s child status view = .reaped child (s.proc child).exitcode := by
  rcases waitChild_cases s child status view with ⟨living,_⟩ | ⟨_,⟨_,reaps⟩ | ⟨hits,_⟩ | ⟨blocked,_⟩⟩
  · rw [exited] at living; cases living
  · exact reaps
  · exact absurd hits (writable_clear writable)
  · exact absurd writable blocked

lemma sysWaitpid_cases (s : Procs) (cur : ProcId) (pid : Int) (status : BitVec 32) (options : Int) (view : View) :
    (options ≠ 0 ∧ sysWaitpid s cur pid status options view = .error .einval) ∨
    (options = 0 ∧ findProc s pid = none ∧ sysWaitpid s cur pid status options view = .panic) ∨
    (options = 0 ∧ findProc s pid = some none ∧ sysWaitpid s cur pid status options view = .error .esrch) ∨
    (∃ child, options = 0 ∧ findProc s pid = some (some child) ∧ (s.proc child).parentPid ≠ (s.proc cur).pid ∧
      sysWaitpid s cur pid status options view = .error .echild) ∨
    (∃ child, options = 0 ∧ findProc s pid = some (some child) ∧ (s.proc child).parentPid = (s.proc cur).pid ∧
      sysWaitpid s cur pid status options view = waitChild s child status view) := by
  by_cases none_ : options = 0
  · refine .inr ?_
    unfold sysWaitpid
    cases hit : findProc s pid with
    | none => exact .inl ⟨none_,rfl,by simp [none_]⟩
    | some slot =>
      cases slot with
      | none => exact .inr (.inl ⟨none_,rfl,by simp [none_]⟩)
      | some child =>
        refine .inr (.inr ?_)
        by_cases own : (s.proc child).parentPid = (s.proc cur).pid
        · exact .inr ⟨child,none_,rfl,own,by simp [none_,own]⟩
        · exact .inl ⟨child,none_,rfl,own,by simp [none_,own]⟩
  · exact .inl ⟨none_,by simp [sysWaitpid,none_]⟩

lemma findProc_some (hit : findProc s pid = some slot) : pid ≤ pidMax ∧ pidMin ≤ pid ∧ s.activeProcList pid = slot := by
  unfold findProc at hit
  split at hit
  · rename_i range; exact ⟨range.1,range.2,some.inj hit⟩
  · cases hit

def Tested (s : State) (p child : ProcId) : Prop :=
  Listed s.procs child ∧ (s.procs.proc child).parentPid = (s.procs.proc p).pid

lemma outcome_idle (call : outcome s event = some (p,res)) : (s.ctl p).idle := by
  cases event with
  | wait q pid status options view =>
    simp only [outcome] at call
    split at call
    · rename_i runs; cases call; simp [runs,Ctl.idle]
    · cases call
  | resume q view =>
    simp only [outcome] at call
    split at call
    · rename_i held; cases call; simp [held,Ctl.idle]
    · cases call
  | _ => cases call

lemma outcome_tested (ok : Valid s) (call : outcome s event = some (p,res)) :
    (∃ errno, res = .error errno) ∨ res = .panic ∨
      ∃ child status view, Tested s p child ∧ res = waitChild s.procs child status view := by
  cases event with
  | wait q pid status options view =>
    simp only [outcome] at call
    split at call
    · cases call
      rcases sysWaitpid_cases s.procs p pid status options view with
        ⟨_,eq⟩ | ⟨_,_,eq⟩ | ⟨_,_,eq⟩ | ⟨child,_,_,_,eq⟩ | ⟨child,_,hit,own,eq⟩
      · exact .inl ⟨_,eq⟩
      · exact .inr (.inl eq)
      · exact .inl ⟨_,eq⟩
      · exact .inl ⟨_,eq⟩
      · exact .inr (.inr ⟨child,status,view,⟨⟨pid,(findProc_some hit).2.2⟩,own⟩,eq⟩)
    · cases call
  | resume q view =>
    simp only [outcome] at call
    split at call
    · rename_i child status held
      cases call
      obtain ⟨listed,own,_⟩ := ok.waiting p child status false held
      exact .inr (.inr ⟨child,status,view,⟨listed,own⟩,rfl⟩)
    · cases call
  | _ => cases call

lemma outcome_sleep (ok : Valid s) (call : outcome s event = some (p,.sleep child)) :
    Tested s p child ∧ (s.procs.proc child).exit = false := by
  rcases outcome_tested ok call with ⟨_,no⟩ | no | ⟨hit,status,view,tested,eq⟩
  · cases no
  · cases no
  rcases waitChild_cases s.procs hit status view with ⟨living,sleeps⟩ | ⟨_,⟨_,no⟩ | ⟨_,no⟩ | ⟨_,_,no⟩⟩
  · cases eq.trans sleeps; exact ⟨tested,living⟩
  · cases eq.trans no
  · cases eq.trans no
  · cases eq.trans no

lemma outcome_reaped (ok : Valid s) (call : outcome s event = some (p,.reaped child word)) :
    Tested s p child ∧ (s.procs.proc child).exit ∧ word = (s.procs.proc child).exitcode := by
  rcases outcome_tested ok call with ⟨_,no⟩ | no | ⟨hit,status,view,tested,eq⟩
  · cases no
  · cases no
  rcases waitChild_cases s.procs hit status view with ⟨_,no⟩ | ⟨exited,⟨_,reaps⟩ | ⟨_,no⟩ | ⟨_,_,no⟩⟩
  · cases eq.trans no
  · cases eq.trans reaps; exact ⟨tested,exited,rfl⟩
  · cases eq.trans no
  · cases eq.trans no

lemma awake_cases (c : Ctl) : c.awake = c ∨ ∃ child status, c = .waiting child status true ∧
    c.awake = .waiting child status false := by
  cases c with
  | waiting child status asleep =>
    cases asleep with
    | true => exact .inr ⟨child,status,rfl,rfl⟩
    | false => exact .inl rfl
  | _ => exact .inl rfl

lemma wake_other (ctl : ProcId → Ctl) (apart : q ≠ p) : wake ctl p q = ctl q := update_of_ne apart _ _

lemma wake_apply (ctl : ProcId → Ctl) (p q : ProcId) :
    wake ctl p q = ctl q ∨ ∃ child status, q = p ∧ ctl q = .waiting child status true ∧
      wake ctl p q = .waiting child status false := by
  by_cases here : q = p
  · subst here
    rw [wake,update_self]
    exact (awake_cases (ctl q)).imp_right fun ⟨child,status,asleep,woken⟩ => ⟨child,status,rfl,asleep,woken⟩
  · exact .inl (wake_other ctl here)

lemma wake_awake (ctl : ProcId → Ctl) (p : ProcId) : wake ctl p p ≠ .waiting child status true := by
  rw [wake,update_self]
  rcases awake_cases (ctl p) with eq | ⟨_,_,_,woken⟩
  · intro asleep
    rw [eq] at asleep
    rw [asleep] at eq
    cases eq
  rw [woken]
  nofun

lemma valid_exitChild (ok : Valid s) (runs : s.ctl p = .user)
    (hit : s.procs.activeProcList (s.procs.proc p).parentPid = some parent)
    (alive : (s.procs.proc parent).exit = false) : Valid {s with
      procs := exitedChildrenCleanup (markExited s.procs p exitcode) (s.procs.proc p).pid
      ctl := wake (update s.ctl p .gone) parent} := by
  obtain ⟨listed,living⟩ := ok.running runs
  have marked : TableValid (markExited s.procs p exitcode) := marked_valid ok.table
  have record : ∀ q, (exitedChildrenCleanup (markExited s.procs p exitcode) (s.procs.proc p).pid).proc q =
      if q = p then {s.procs.proc p with exit := true,exitcode := mkwaitExit exitcode}
      else s.procs.proc q := by
    intro q
    rw [cleanup_proc marked,marked_proc]
  have enlisted : ∀ q, Listed (exitedChildrenCleanup (markExited s.procs p exitcode) (s.procs.proc p).pid) q ↔
        Listed s.procs q ∧ exitedChild (s.procs.proc p).pid ((markExited s.procs p exitcode).proc q) = false := by
    intro q
    rw [listed_cleanup marked,marked_listed]
  have markedProc := marked_proc s.procs p exitcode
  have woken : ∀ q, wake (update s.ctl p .gone) parent q = update s.ctl p .gone q ∨
      ∃ child status, q = parent ∧ update s.ctl p .gone q = .waiting child status true ∧
        wake (update s.ctl p .gone) parent q = .waiting child status false := wake_apply _ parent
  have parentPid := ok.table.self _ _ hit
  refine ⟨cleanup_valid marked,le_trans (cleanup_largest marked) ok.bound,?_,?_,?_,?_,?_,?_,?_,?_,?_⟩
  · intro n above
    have pre := ok.fresh n above
    have eq := woken n
    grind
  · intro q
    have pre := ok.present q
    have eq := woken q
    grind [exitedChild]
  · intro q
    have pre := ok.listed q
    have eq := woken q
    grind
  · intro q child
    have pre := ok.making q child
    have eq := woken q
    have ne := woken child
    grind
  · intro child q
    have pre := ok.maker child q
    have eq := woken q
    have ne := woken child
    grind
  · intro q
    have pre := ok.parent q
    grind
  · intro child
    have pre := ok.dummy child
    have eq := woken child
    grind
  · intro child made
    have pre := ok.parented child
    have eq := woken child
    grind
  intro q child status asleep held
  have awake : wake (update s.ctl p .gone) parent parent ≠ .waiting child status true := wake_awake _ _
  obtain ⟨slept,pre⟩ : ∃ slept, s.ctl q = .waiting child status slept := by
    have eq := woken q
    grind
  have waits := ok.waiting q child status slept pre
  have waiter := ok.waits_parent pre listed
  have eq := woken q
  have slot := ok.table.slot (ok.present q (by simp [pre,Ctl.present])).1
  refine ⟨?_,?_,?_⟩
  · grind [exitedChild]
  · grind
  intro exited
  by_cases self : child = p
  · subst self
    have signalled : q = parent := by
      rw [waits.2.1,slot] at hit
      exact some.inj hit
    subst signalled
    cases asleep with
    | false => rfl
    | true => exact absurd held awake
  have slept := waits.2.2 (by simpa [record,self] using exited)
  grind

lemma valid_reaped (ok : Valid s) (idle : (s.ctl p).idle) (tested : Tested s p child)
    (exited : (s.procs.proc child).exit) : Valid {s.setCtl p .user with procs := procDestroy s.procs child} := by
  obtain ⟨listed,own⟩ := tested
  obtain ⟨there,notEmbryo,notMaking⟩ := idle_cases idle
  have enlisted : ∀ q, Listed (procDestroy s.procs child) q ↔ Listed s.procs q ∧ q ≠ child :=
    fun q => listed_destroy ok.table listed
  have record : (procDestroy s.procs child).proc = s.procs.proc := rfl
  have self := ok.present p there
  have after := valid_setCtl (c := .user) ok idle rfl (by simp)
  obtain ⟨i,hit⟩ := listed
  refine ⟨destroy_valid ok.table hit,le_trans destroy_largest ok.bound,after.fresh,?_,?_,
    after.making,after.maker,?_,after.dummy,after.parented,?_⟩
  · intro q
    have pre := after.present q
    grind
  · intro q
    have pre := after.listed q
    grind
  · intro q
    have pre := after.parent q
    grind
  intro q other status asleep held
  have pre : s.ctl q = .waiting other status asleep ∧ q ≠ p := by grind
  have waits := ok.waiting q other status asleep pre.1
  have parent := ok.waits_parent pre.1 self.1
  grind

lemma step_valid (ok : Valid s) (did : step s event = some after) : Valid after := by
  cases step_sound did with
  | refused runs full => exact ok
  | checked runs room => exact valid_setCtl ok (by simp [runs,Ctl.idle]) rfl (by simp)
  | nomem passed => exact valid_setCtl ok (by simp [passed,Ctl.idle]) rfl (by simp)
  | spawn => exact valid_create ok none (by simp)
  | fork passed =>
    refine valid_create ok (some _) ?_
    intro q eq
    cases eq
    exact passed
  | list made inside => exact valid_list ok made inside
  | adopt made by_ => exact valid_adopt ok made by_
  | startSpawned made by_ =>
    rw [settle_spawned by_]
    exact valid_start ok (by simp [made,Ctl.embryo]) (by simp [made,Ctl.present])
  | startForked made by_ =>
    rw [settle_forked by_ (ok.maker_present (by simp [made,Ctl.embryo]) by_).2.2]
    exact valid_start ok (by simp [made,Ctl.embryo]) (by simp [made,Ctl.present])
  | failSpawned made by_ =>
    rw [settle_spawned by_]
    exact valid_fail ok (.inl made)
  | failForked made by_ =>
    rw [settle_forked by_ (ok.maker_present (by simp [made,Ctl.embryo]) by_).2.2]
    exact valid_fail ok (.inr made)
  | exitAlone runs alone => exact valid_exitAlone ok runs alone
  | exitChild runs hit alive => exact valid_exitChild ok runs hit alive
  | error call => exact valid_setCtl ok (outcome_idle call) rfl (by simp)
  | sleep call =>
    obtain ⟨⟨listed,own⟩,living⟩ := outcome_sleep ok call
    apply valid_setCtl ok (outcome_idle call) rfl
    intro child status asleep eq
    cases eq
    exact ⟨listed,own,by simp [living]⟩
  | reaped call =>
    obtain ⟨tested,exited,_⟩ := outcome_reaped ok call
    exact valid_reaped ok (outcome_idle call) tested exited

lemma reached_valid (path : Reached allowed s) : Valid s :=
  Transition.Reached.invariant Valid path initial_valid fun _ ok _ did => step_valid ok did
end ToyOS.ProcMachine
