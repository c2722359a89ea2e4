import ToyOS.ProcInvariant

namespace ToyOS.ProcMachine
open Function ProcTable WaitStatus

def Event.quiet : Event → Bool
  | .list _ | .adopt _ | .fail _ | .exit _ _ => false
  | _ => true

-- What a step does to the table: which process each slot holds, and the processes' records.
inductive Change (s : State) : Event → Procs → Prop where
  | quiet (calm : event.quiet = true) (list : t.activeProcList = s.procs.activeProcList)
      (record : ∀ q, Listed s.procs q → t.proc q = s.procs.proc q) : Change s event t
  | list (made : s.ctl new = .unlisted)
      (found : ∀ i q, t.activeProcList i = some q ↔
        (i = lowestFree s.procs ∧ q = new) ∨ s.procs.activeProcList i = some q)
      (record : ∀ q, t.proc q =
        if q = new then {s.procs.proc new with pid := lowestFree s.procs} else s.procs.proc q) :
      Change s (.list new) t
  | adopt (made : s.ctl new = .listed) (by_ : s.maker new = some p)
      (list : t.activeProcList = s.procs.activeProcList)
      (record : ∀ q, t.proc q =
        if q = new then {s.procs.proc new with parentPid := (s.procs.proc p).pid} else s.procs.proc q) :
      Change s (.adopt new) t
  | fail (made : s.ctl new = .listed ∨ s.ctl new = .parented)
      (found : ∀ i q, t.activeProcList i = some q ↔ s.procs.activeProcList i = some q ∧ q ≠ new)
      (record : t.proc = s.procs.proc) : Change s (.fail new) t
  | exitAlone (running : s.ctl p = .user)
      (alone : (s.procs.proc p).parentPid = -1 ∨
        ∀ q, s.procs.activeProcList (s.procs.proc p).parentPid = some q → (s.procs.proc q).exit = true)
      (found : ∀ i q, t.activeProcList i = some q ↔ s.procs.activeProcList i = some q ∧
        exitedChild (s.procs.proc p).pid (s.procs.proc q) = false ∧ q ≠ p)
      (record : t.proc = s.procs.proc) : Change s (.exit p exitcode) t
  | exitChild (running : s.ctl p = .user)
      (parent : s.procs.activeProcList (s.procs.proc p).parentPid = some q)
      (alive : (s.procs.proc q).exit = false)
      (found : ∀ i c, t.activeProcList i = some c ↔ s.procs.activeProcList i = some c ∧
        exitedChild (s.procs.proc p).pid (t.proc c) = false)
      (record : ∀ c, t.proc c = if c = p then {s.procs.proc p with
        exit := true,exitcode := mkwaitExit exitcode} else s.procs.proc c) : Change s (.exit p exitcode) t
  | reaped (called : outcome s event = some (p,.reaped child word)) (tested : Tested s p child)
      (exited : (s.procs.proc child).exit = true)
      (found : ∀ i q, t.activeProcList i = some q ↔ s.procs.activeProcList i = some q ∧ q ≠ child)
      (record : t.proc = s.procs.proc) : Change s event t

lemma outcome_calm (call : outcome s event = some result) : event.quiet := by
  cases event <;> first | rfl | cases call

lemma step_change (ok : Valid s) (did : step s event = some after) : Change s event after.procs := by
  have fresh : ¬ Listed s.procs s.next := by
    have unused := ok.fresh s.next le_rfl
    exact ok.unlisted (by simp [unused,Ctl.present]) (by simp [unused])
  have created : ∀ maker, Change s (.create maker) ((s.claim maker).create maker).procs := by
    intro maker
    refine .quiet rfl (by cases maker <;> rfl) ?_
    intro q listed
    rw [claim_create_proc,if_neg]
    intro eq
    exact fresh (eq ▸ listed)
  have bad : ∀ {new}, s.ctl new = .listed ∨ s.ctl new = .parented → Change s (.fail new) (procDestroy s.procs new) := by
    intro new made
    have listed : Listed s.procs new := (ok.present new (by rcases made with made | made <;> simp [made,Ctl.present])).1
    exact .fail made (fun i q => destroy_found ok.table listed) rfl
  cases step_sound did with
  | refused runs full => exact .quiet rfl rfl fun _ _ => rfl
  | checked runs room => exact .quiet rfl rfl fun _ _ => rfl
  | nomem passed => exact .quiet rfl rfl fun _ _ => rfl
  | spawn => exact created none
  | fork passed => exact created (some _)
  | list made inside => exact .list made (fun i q => add_found ok.table) fun q => by rw [add_proc,update_apply]
  | adopt made by_ => exact .adopt made by_ rfl fun q => by simp only [Procs.set,update_apply]
  | startSpawned made by_ | startForked made by_ => exact .quiet rfl rfl fun _ _ => rfl
  | failSpawned made by_ => exact bad (.inl made)
  | failForked made by_ => exact bad (.inr made)
  | exitAlone runs alone =>
    obtain ⟨listed,living⟩ := ok.running runs
    refine .exitAlone runs alone ?_ (cleanup_proc ok.table)
    intro i q
    rw [destroy_found (cleanup_valid ok.table) (cleanup_keeps ok.table listed living _),
      cleanup_found ok.table,and_assoc]
  | exitChild runs parent alive =>
    refine .exitChild runs parent alive (fun i c => ?_) fun c => ?_
    · rw [cleanup_found (marked_valid ok.table),cleanup_proc (marked_valid ok.table)]
      exact Iff.rfl
    · rw [cleanup_proc (marked_valid ok.table),marked_proc]
  | error call | sleep call => exact .quiet (outcome_calm call) rfl fun _ _ => rfl
  | reaped call =>
    obtain ⟨tested,exited,_⟩ := outcome_reaped ok call
    exact .reaped call tested exited (fun i q => destroy_found ok.table tested.1) rfl

def Ctl.thread : Ctl → Bool
  | .user | .checked | .making _ | .waiting _ _ _ => true
  | _ => false

lemma thread_present {c : Ctl} (thread : c.thread) : c.present := by
  cases c <;> first | rfl | cases thread

lemma idle_thread {c : Ctl} (idle : c.idle) : c.thread := by
  cases c <;> first | rfl | cases idle

-- The life of a process, as the control of one process moves in a step.
inductive Move (event : Event) (q : ProcId) (maker : Option ProcId) : Ctl → Ctl → Prop where
  | stay : Move event q maker c c
  | made : Move event q maker .unused .unlisted
  | listed : Move event q maker .unlisted .listed
  | parented (called : event = .adopt q) : Move event q maker .listed .parented
  | spawned (by_ : maker = none) : Move event q maker .listed .user
  | forked (by_ : maker = some p) : Move event q maker .parented .user
  | failed (made : c = .listed ∧ maker = none ∨ c = .parented) : Move event q maker c .gone
  | runs (old : c.thread = true) (new : d.thread = true) : Move event q maker c d
  | exits (called : event = .exit q exitcode) : Move event q maker .user .gone

lemma setCtl_move {s : State} {c : Ctl} (was : (s.ctl p).idle) (now : c.idle) (q : ProcId) :
    Move event q (s.maker q) (s.ctl q) ((s.setCtl p c).ctl q) := by
  rw [setCtl_ctl]
  split
  · rename_i here
    subst here
    exact .runs (idle_thread was) (idle_thread now)
  · exact .stay

lemma settle_move (ok : Valid s) (made : (s.ctl new).embryo) (own : Move event new (s.maker new) (s.ctl new) c)
    (q : ProcId) : Move event q (s.maker q) (s.ctl q) ((s.settle new c).ctl q) := by
  rw [settle_ctl]
  split
  · rename_i here; subst here; exact own
  split
  · rename_i maker
    exact .runs (by rw [ok.maker new q made maker]; rfl) rfl
  · exact .stay

lemma create_move (ok : Valid s) (maker : Option ProcId) (passed : ∀ p, maker = some p → s.ctl p = .checked)
    (q : ProcId) : Move event q (s.maker q) (s.ctl q) (((s.claim maker).create maker).ctl q) := by
  rw [claim_create_ctl]
  split
  · rename_i here
    rw [here,ok.fresh s.next le_rfl]
    exact .made
  split
  · rename_i eq
    exact .runs (by rw [passed q eq]; rfl) rfl
  · exact .stay

lemma exit_move {s : State} (runs : s.ctl p = .user) (q : ProcId) :
    Move (.exit p exitcode) q (s.maker q) (s.ctl q) (update s.ctl p .gone q) := by
  by_cases here : q = p
  · subst here
    rw [runs,update_self]
    exact .exits rfl
  rw [update_of_ne here]
  exact .stay

lemma step_move (ok : Valid s) (did : step s event = some after) (q : ProcId) :
    Move event q (s.maker q) (s.ctl q) (after.ctl q) := by
  cases step_sound did with
  | refused running full => exact .stay
  | checked running room => exact setCtl_move (by rw [running]; rfl) rfl q
  | nomem passed => exact setCtl_move (by rw [passed]; rfl) rfl q
  | spawn => exact create_move ok none (by simp) q
  | fork passed =>
    refine create_move ok (some _) ?_ q
    intro p eq
    cases eq
    exact passed
  | list made inside =>
    change Move _ q _ _ ((s.setCtl _ .listed).ctl q)
    rw [setCtl_ctl]
    split
    · rename_i here; rw [here,made]; exact .listed
    · exact .stay
  | adopt made by_ =>
    change Move _ q _ _ ((s.setCtl _ .parented).ctl q)
    rw [setCtl_ctl]
    split
    · rename_i here; subst here; rw [made]; exact .parented rfl
    · exact .stay
  | startSpawned made by_ =>
    rw [settle_spawned by_]
    exact settle_move ok (by rw [made]; rfl) (by rw [made]; exact .spawned by_) q
  | startForked made by_ =>
    rw [settle_forked by_ (ok.maker_present (by rw [made]; rfl) by_).2.2]
    exact settle_move ok (by rw [made]; rfl) (by rw [made]; exact .forked by_) q
  | failSpawned made by_ =>
    rw [settle_spawned by_]
    exact settle_move ok (by rw [made]; rfl) (.failed (.inl ⟨made,by_⟩)) q
  | failForked made by_ =>
    rw [settle_forked by_ (ok.maker_present (by rw [made]; rfl) by_).2.2]
    exact settle_move ok (by rw [made]; rfl) (.failed (.inr made)) q
  | exitAlone running alone => exact exit_move running q
  | exitChild running hit alive =>
    rename_i parent p exitcode
    change Move _ q _ _ (wake (update s.ctl p .gone) parent q)
    rcases wake_apply (update s.ctl p .gone) parent q with eq | ⟨child,status,_,asleep,woken⟩
    · rw [eq]
      exact exit_move running q
    rw [woken]
    have slept : s.ctl q = .waiting child status true := by
      by_cases here : q = p
      · rw [here,update_self] at asleep; cases asleep
      · rwa [update_of_ne here] at asleep
    exact .runs (by rw [slept]; rfl) rfl
  | error call | sleep call | reaped call => exact setCtl_move (outcome_idle call) rfl q

lemma step_maker (did : step s event = some after) (old : p < s.next) : after.maker p = s.maker p := by
  have ne : p ≠ s.next := ne_of_lt old
  cases step_sound did with
  | spawn => simp [State.create,ne]
  | fork passed => simp [State.create,ne]
  | _ => rfl

lemma Valid.made (ok : Valid s) (listed : Listed s.procs p) : p < s.next := by
  by_contra unmade
  have unused := ok.fresh p (Nat.le_of_not_lt unmade)
  exact ok.unlisted (by rw [unused]; rfl) (by rw [unused]; simp) listed
end ToyOS.ProcMachine
