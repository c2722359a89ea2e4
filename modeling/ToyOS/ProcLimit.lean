import ToyOS.ProcChanges

namespace ToyOS.ProcLimit
open Function ProcTable ProcMachine Option

def Counts (coming : Set ProcId) (t : Procs) : Prop :=
  (t.procCount : ℕ∞) = (members t ∪ coming).encard

def entering (s : State) : Set ProcId := {p | s.ctl p = .unlisted}
lemma Counts.at (counts : Counts coming t) (eq : others = coming) : Counts others t := eq ▸ counts

lemma counts_destroy (ok : TableValid t) (listed : Listed t p) (out : p ∉ coming)
    (counts : Counts coming t) : Counts coming (procDestroy t p) := by
  obtain ⟨i,hit⟩ := listed
  have rest : members t \ {p} ∪ coming = (members t ∪ coming) \ {p} := by
    ext q
    by_cases here : q = p
    · subst here; simp [out]
    · simp [here]
  unfold Counts
  rw [destroy_members ok hit,rest,Set.encard_sdiff_singleton_of_mem (.inl ⟨i,hit⟩),←counts]
  simp [procDestroy]

lemma counts_cleanup (ok : TableValid t) (out : ∀ p, Listed t p → p ∉ coming)
    (counts : Counts coming t) (pid : Int) : Counts coming (exitedChildrenCleanup t pid) :=
  (cleanup_rule (fun u => (∀ p, Listed u p → p ∉ coming) ∧ Counts coming u) ok ⟨out,counts⟩ fun ok _ hit _ both =>
      ⟨fun q there => both.1 q ((listed_destroy ok ⟨_,hit⟩).mp there).1,
        counts_destroy ok ⟨_,hit⟩ (both.1 _ ⟨_,hit⟩) both.2⟩).2

lemma initial_counts : Counts (entering initial) initial.procs := by
  have none_ : entering initial = ∅ := by
    ext p
    simp [entering,initial]
  unfold Counts
  rw [none_,show members initial.procs = ∅ from procBootstrap_members]
  simp [initial,procBootstrap]

lemma create_entering (s : State) (maker : Option ProcId) (passed : ∀ p, maker = some p → s.ctl p = .checked) :
    entering ((s.claim maker).create maker) = insert s.next (entering s) := by
  ext q
  simp only [entering,Set.mem_ofPred_eq,Set.mem_insert_iff,claim_create_ctl]
  grind

lemma counts_create (ok : Valid s) (maker : Option ProcId)
    (passed : ∀ p, maker = some p → s.ctl p = .checked) (counts : Counts (entering s) s.procs) :
    Counts (entering ((s.claim maker).create maker)) ((s.claim maker).create maker).procs := by
  have unused := ok.fresh s.next le_rfl
  have absent : s.next ∉ members s.procs ∪ entering s := by
    rintro (listed | waiting)
    · exact ok.unlisted (by rw [unused]; rfl) (by rw [unused]; nofun) listed
    have : s.ctl s.next = .unlisted := waiting
    rw [unused] at this
    cases this
  have eq : members ((s.claim maker).create maker).procs = members s.procs := by
    ext q
    exact claim_create_listed s maker q
  have counted : ((s.claim maker).create maker).procs.procCount = s.procs.procCount+1 := by cases maker <;> rfl
  unfold Counts
  rw [create_entering s maker passed,eq,Set.union_insert,Set.encard_insert_of_notMem absent,←counts,counted]
  simp

lemma setCtl_entering {s : State} (was : s.ctl p ≠ .unlisted) (c : Ctl) (now : c ≠ .unlisted) :
    entering (s.setCtl p c) = entering s := by
  ext q
  simp only [entering,Set.mem_ofPred_eq,setCtl_ctl]
  grind

lemma settle_entering (ok : Valid s) (made : s.ctl new = .listed ∨ s.ctl new = .parented)
    (c : Ctl) (now : c ≠ .unlisted) : entering (s.settle new c) = entering s := by
  ext q
  have maker := ok.maker new q (by rcases made with made | made <;> rw [made] <;> rfl)
  simp only [entering,Set.mem_ofPred_eq,settle_ctl]
  grind

lemma exit_entering (runs : s.ctl p = .user) (parent : ProcId) : {q | update s.ctl p .gone q = .unlisted} = entering s ∧
    {q | wake (update s.ctl p .gone) parent q = .unlisted} = entering s := by
  have gone : {q | update s.ctl p .gone q = .unlisted} = entering s := by
    ext q
    simp only [entering,Set.mem_ofPred_eq]
    grind
  refine ⟨gone,?_⟩
  rw [←gone]
  ext q
  simp only [Set.mem_ofPred_eq]
  rcases wake_apply (update s.ctl p .gone) parent q with eq | ⟨child,status,_,asleep,woken⟩
  · rw [eq]
  rw [asleep,woken]
  simp

lemma listed_outside (ok : Valid s) (listed : Listed s.procs p) : p ∉ entering s := by
  intro waiting
  have made : s.ctl p = .unlisted := waiting
  exact ok.unlisted (by rw [made]; rfl) (by rw [made]; nofun) listed

lemma step_counts (ok : Valid s) (counts : Counts (entering s) s.procs)
    (did : step s event = some after) : Counts (entering after) after.procs := by
  -- control moves that make and list no process
  have moved {p c} (was : (s.ctl p).idle) (now : c ≠ .unlisted) : Counts (entering (s.setCtl p c)) s.procs := by
    rw [setCtl_entering (by intro eq; rw [eq] at was; cases was) c now]
    exact counts
  have out : ∀ p, Listed s.procs p → p ∉ entering s := fun p => listed_outside ok
  cases step_sound did with
  | refused runs full => exact counts
  | checked runs room => exact moved (by rw [runs]; rfl) nofun
  | nomem passed => exact moved (by rw [passed]; rfl) nofun
  | spawn => exact counts_create ok none nofun counts
  | fork passed =>
    refine counts_create ok (some _) ?_ counts
    intro p eq
    cases eq
    exact passed
  | list made inside =>
    rename_i new
    have rest : members (addToActiveProcList s.procs new) ∪ entering (s.setCtl new .listed) =
        members s.procs ∪ entering s := by
      ext q
      simp only [add_members ok.table,entering,Set.mem_union,Set.mem_insert_iff,Set.mem_ofPred_eq,setCtl_ctl]
      grind
    unfold Counts
    rw [show entering {s.setCtl new .listed with procs := addToActiveProcList s.procs new} =
      entering (s.setCtl new .listed) from rfl,rest,←counts,add_eq]
    rfl
  | adopt made by_ => exact Counts.at counts (setCtl_entering (by rw [made]; nofun) .parented nofun)
  | startSpawned made by_ =>
    rw [settle_spawned by_,settle_entering ok (.inl made) .user nofun]
    exact counts
  | startForked made by_ =>
    rw [settle_forked by_ (ok.maker_present (by rw [made]; rfl) by_).2.2,settle_entering ok (.inr made) .user nofun]
    exact counts
  | failSpawned made by_ =>
    have listed := (ok.present _ (by rw [made]; rfl)).1
    rw [settle_spawned by_]
    exact (counts_destroy ok.table listed (out _ listed) counts).at (settle_entering ok (.inl made) .gone nofun)
  | failForked made by_ =>
    have listed := (ok.present _ (by rw [made]; rfl)).1
    rw [settle_forked by_ (ok.maker_present (by rw [made]; rfl) by_).2.2]
    exact (counts_destroy ok.table listed (out _ listed) counts).at (settle_entering ok (.inr made) .gone nofun)
  | exitAlone runs alone =>
    obtain ⟨listed,living⟩ := ok.running runs
    exact (counts_destroy (cleanup_valid ok.table) (cleanup_keeps ok.table listed living _) (out _ listed)
      (counts_cleanup ok.table out counts _)).at (exit_entering runs 0).1
  | exitChild runs hit alive => exact (counts_cleanup (marked_valid ok.table) out counts _).at (exit_entering runs _).2
  | error call | sleep call => exact moved (outcome_idle call) nofun
  | reaped call =>
    have listed := (outcome_reaped ok call).1.1
    have rest := moved (c := .user) (outcome_idle call) nofun
    have after := valid_setCtl (c := .user) ok (outcome_idle call) rfl (by simp)
    have away := listed_outside after listed
    exact counts_destroy ok.table listed away rest

lemma reached_counts (path : Reached allowed s) : Counts (entering s) s.procs :=
  Transition.Reached.invariant (fun s => Counts (entering s) s.procs) path initial_counts
    fun prior counts _ did => step_counts (reached_valid prior) counts did

def WithinLimit (s : State) : Event → Prop
  | .create _ => s.procs.procCount < procLimit
  | _ => True

lemma cleanup_count (ok : TableValid t) : (exitedChildrenCleanup t pid).procCount ≤ t.procCount :=
  cleanup_rule (fun u => u.procCount ≤ t.procCount) ok (le_refl _) fun _ _ _ _ lt => le_trans (Nat.sub_le _ _) lt

lemma step_limit (ok : Valid s) (lt : s.procs.procCount ≤ procLimit) (may : WithinLimit s event)
    (did : step s event = some after) : after.procs.procCount ≤ procLimit := by
  cases step_sound did with
  | spawn => exact may
  | fork passed => exact may
  | list made inside => simpa [add_eq,Procs.place] using lt
  | failSpawned made by_ | failForked made by_ => exact le_trans (Nat.sub_le _ _) lt
  | exitAlone runs alone => exact le_trans (Nat.sub_le _ _) (le_trans (cleanup_count ok.table) lt)
  | exitChild runs hit alive => exact le_trans (cleanup_count (marked_valid ok.table)) lt
  | reaped call => exact le_trans (Nat.sub_le _ _) lt
  | _ => exact lt

lemma reached_limit (path : Reached WithinLimit s) : s.procs.procCount ≤ procLimit :=
  Transition.Reached.invariant (fun s => s.procs.procCount ≤ procLimit) path (by decide)
    fun prior lt may did => step_limit (reached_valid prior) lt may did

lemma lowestFree_within (path : Reached WithinLimit s) (made : s.ctl new = .unlisted) :
    lowestFree s.procs ≤ pidMax := by
  have ok := reached_valid path
  have counts := reached_counts path
  apply lowestFree_le ok.table ok.bound
  have absent : new ∉ members s.procs := fun listed => listed_outside ok listed made
  calc (members s.procs).encard < (insert new (members s.procs)).encard := by
        rw [Set.encard_insert_of_notMem absent]
        have finite : (members s.procs).encard ≠ ⊤ := by
          have lt := Set.encard_le_encard (Set.subset_union_left (s := members s.procs) (t := entering s))
          rw [←counts] at lt
          exact ne_top_of_le_ne_top (ENat.natCast_ne_top _) lt
        exact ENat.lt_add_one_iff finite |>.mpr le_rfl
    _ ≤ (members s.procs ∪ entering s).encard := by
        apply Set.encard_le_encard
        intro q inside
        rcases inside with eq | mem
        · exact .inr (eq ▸ made)
        · exact .inl mem
    _ = s.procs.procCount := counts.symm
    _ ≤ procLimit := by exact_mod_cast reached_limit path

-- The slots of active_proc_list that a step reads or writes.
inductive Indexed (s : State) : Event → Int → Prop where
  | search (made : s.ctl new = .unlisted) (low : 2 ≤ i) (high : i ≤ s.procs.currentLargestPid) :
      Indexed s (.list new) i
  | place (made : s.ctl new = .unlisted) : Indexed s (.list new) (lowestFree s.procs)
  | unmake (made : s.ctl new = .listed ∨ s.ctl new = .parented) :
      Indexed s (.fail new) (s.procs.proc new).pid
  | parent (running : s.ctl p = .user)
      (checked : (s.procs.proc p).parentPid ≤ pidMax ∧ pidMin ≤ (s.procs.proc p).parentPid) :
      Indexed s (.exit p exitcode) (s.procs.proc p).parentPid
  | cleanup (running : s.ctl p = .user) (low : 2 ≤ i) (high : i ≤ s.procs.currentLargestPid) :
      Indexed s (.exit p exitcode) i
  | leave (running : s.ctl p = .user) : Indexed s (.exit p exitcode) (s.procs.proc p).pid
  | find (running : s.ctl p = .user) (checked : pid ≤ pidMax ∧ pidMin ≤ pid) :
      Indexed s (.wait p pid status options view) pid
  | reap (called : outcome s event = some (p,.reaped child word)) :
      Indexed s event (s.procs.proc child).pid

theorem pids_within_limit (path : Reached WithinLimit s) :
    (∀ new, s.ctl new = .unlisted → pidMin ≤ lowestFree s.procs ∧ lowestFree s.procs ≤ pidMax) ∧
    (∀ p, Listed s.procs p → pidMin ≤ (s.procs.proc p).pid ∧ (s.procs.proc p).pid ≤ pidMax) ∧
    ∀ event i, Indexed s event i → 0 ≤ i ∧ i < maxProc := by
  have valid := reached_valid path
  have placed : ∀ new, s.ctl new = .unlisted → pidMin ≤ lowestFree s.procs ∧ lowestFree s.procs ≤ pidMax :=
    fun new made => ⟨(lowestFree_spec valid.table).1,lowestFree_within path made⟩
  have held : ∀ p, Listed s.procs p → pidMin ≤ (s.procs.proc p).pid ∧ (s.procs.proc p).pid ≤ pidMax :=
    fun p listed => ⟨(valid.table.pid_bounds listed).1,le_trans (valid.table.pid_bounds listed).2 valid.bound⟩
  refine ⟨placed,held,?_⟩
  intro event i used
  have inside {j : Int} (range : pidMin ≤ j ∧ j ≤ pidMax) : 0 ≤ j ∧ j < maxProc := by
    unfold pidMin pidMax at range
    unfold maxProc
    omega
  cases used with
  | search made low high => exact inside ⟨low,le_trans high valid.bound⟩
  | place made => exact inside (placed _ made)
  | unmake made => exact inside (held _ (valid.present _ (by rcases made with made | made <;> rw [made] <;> rfl)).1)
  | parent running checked => exact inside ⟨checked.2,checked.1⟩
  | cleanup running low high => exact inside ⟨low,le_trans high valid.bound⟩
  | leave running => exact inside (held _ (valid.running running).1)
  | find running checked => exact inside ⟨checked.2,checked.1⟩
  | reap called => exact inside (held _ (outcome_reaped valid called).1.1)

theorem family_within_limit : ∃ s, Reached WithinLimit s ∧ Listed s.procs 1 ∧
    pidMin ≤ (s.procs.proc 1).pid ∧ (s.procs.proc 1).pid ≤ pidMax := by
  let permit : State → Event → Bool := fun s event => match event with
    | .create _ => s.procs.procCount < procLimit
    | _ => true
  have facts : (Transition.run (Transition.guarded permit step) initial family).map
      (fun s => s.procs.activeProcList 3) = some (some 1) := by decide
  obtain ⟨s,ran,slot⟩ := map_eq_some_iff.mp facts
  have path : Reached WithinLimit s := by
    refine Transition.run_permitted ?_ .initial ran
    intro s event _ permitted
    cases event with
    | create maker => simpa [WithinLimit,permit] using permitted
    | _ => trivial
  exact ⟨s,path,⟨3,slot⟩,(pids_within_limit path).2.1 1 ⟨3,slot⟩⟩

lemma full_lowestFree (ok : TableValid t) (full : ∀ i, 2 ≤ i → i ≤ t.currentLargestPid → t.activeProcList i ≠ none) :
    lowestFree t = t.currentLargestPid+1 := by
  obtain ⟨low,high,null,_⟩ := lowestFree_spec ok
  by_contra other
  exact full (lowestFree t) low (by omega) null

-- `k+1` running processes, which hold the pids from 2 on without a gap.
structure Crowd (k : Nat) (s : State) : Prop where
  path : Reached Transition.Free s
  next : s.next = k+1
  running : ∀ q, q ≤ k → s.ctl q = .user
  count : s.procs.procCount = k+1
  largest : s.procs.currentLargestPid = k+2
  full : ∀ i, 2 ≤ i → i ≤ s.procs.currentLargestPid → s.procs.activeProcList i ≠ none

lemma Crowd.lowest (crowd : Crowd k s) : lowestFree s.procs = k+3 := by
  rw [full_lowestFree (reached_valid crowd.path).table crowd.full,crowd.largest]
  omega

lemma crowd_first : ∃ s, Crowd 0 s := by
  have facts : (Transition.run step initial [.create none,.list 0,.start 0]).map
      (fun s => (s.next,s.ctl 0,s.procs.procCount,s.procs.currentLargestPid,s.procs.activeProcList 2)) =
    some (1,.user,1,2,some 0) := by decide
  obtain ⟨s,ran,all⟩ := map_eq_some_iff.mp facts
  simp only [Prod.mk.injEq] at all
  obtain ⟨next,runs,count,largest,slot⟩ := all
  refine ⟨s,Transition.run_reached ran,next,?_,count,largest,?_⟩
  · intro q first
    rw [Nat.le_zero.mp first]
    exact runs
  intro i low high
  have two : i = 2 := by omega
  rw [two,slot]
  exact some_ne_none _

lemma crowd_grows (crowd : Crowd k s) (room : k+1 < procLimit) : Crowd (k+1) (s.forked (some 0)) := by
  have lowest := crowd.lowest
  have path := forked_reached (crowd.running 0 (Nat.zero_le _)) (by rw [crowd.next]; exact Nat.succ_pos k)
    (by simp only [checkProcLimit,crowd.count,beq_eq_false_iff_ne]; omega)
    (by rw [lowest]; unfold maxProc; unfold procLimit at room; omega)
  have table : (s.forked (some 0)).procs.activeProcList =
      update s.procs.activeProcList (lowestFree s.procs) (some s.next) := by
    simp only [State.forked,add_eq]; rfl
  have top : (s.forked (some 0)).procs.currentLargestPid = k+3 := by
    have raised : (s.forked (some 0)).procs.currentLargestPid = max s.procs.currentLargestPid (lowestFree s.procs) := by
      simp only [State.forked,add_eq]; rfl
    rw [raised,crowd.largest,lowest]
    omega
  have counted : (s.forked (some 0)).procs.procCount = s.procs.procCount+1 := by simp only [State.forked,add_eq]; rfl
  refine ⟨crowd.path.trans path,congrArg (·+1) crowd.next,?_,by rw [counted,crowd.count],by rw [top]; omega,?_⟩
  · intro q old
    simp only [State.forked,crowd.next]
    by_cases new : q = k+1
    · rw [new,update_self]
    rw [update_of_ne new]
    exact crowd.running q (by omega)
  intro i low high
  rw [table,lowest]
  by_cases new : i = k+3
  · rw [new,update_self]; exact some_ne_none _
  rw [update_of_ne new]
  exact crowd.full i low (by rw [crowd.largest]; omega)

lemma crowd_upto (k : Nat) (room : k < procLimit) : ∃ s, Crowd k s := by
  induction k with
  | zero => exact crowd_first
  | succ k ih =>
    obtain ⟨s,crowd⟩ := ih (Nat.lt_of_succ_lt room)
    exact ⟨_,crowd_grows crowd room⟩

lemma forks_race (one : s.ctl p = .user) (two : s.ctl q = .user) (apart : p ≠ q) (made : p < s.next ∧ q < s.next)
    (room : checkProcLimit s.procs = false) (inside : lowestFree s.procs < maxProc) :
    ∃ after new, Transition.Reached step Transition.Free s after ∧ after.ctl new = .unlisted ∧
      after.procs.currentLargestPid = max s.procs.currentLargestPid (lowestFree s.procs) ∧
      after.procs.activeProcList = update s.procs.activeProcList (lowestFree s.procs) (some s.next) := by
  have oldOne : s.next ≠ p := Nat.ne_of_gt made.1
  have oldTwo : s.next ≠ q := Nat.ne_of_gt made.2
  let s1 := s.setCtl p .checked
  let s2 := s1.setCtl q .checked
  let s3 := (s2.setCtl p (.making s2.next)).create (some p)
  let s4 := (s3.setCtl q (.making s3.next)).create (some q)
  let s5 : State := {s4.setCtl s.next .listed with procs := addToActiveProcList s4.procs s.next}
  have t1 : step s (.check p) = some s1 := by simp [step,one,room,s1]
  have t2 : step s1 (.check q) = some s2 := by
    have runs : s1.ctl q = .user := by simp [s1,Ne.symm apart,two]
    have again : checkProcLimit s1.procs = false := room
    simp [step,runs,again,s2]
  have t3 : step s2 (.create (some p)) = some s3 := by
    have checked : s2.ctl p = .checked := by simp [s2,s1,apart]
    simp [step,checked,s3]
  have t4 : step s3 (.create (some q)) = some s4 := by
    have checked : s3.ctl q = .checked := by simp [s3,s2,s1,State.create,State.setCtl,Ne.symm apart,Ne.symm oldTwo]
    simp [step,checked,s4]
  have t5 : step s4 (.list s.next) = some s5 := by
    have unlisted : s4.ctl s.next = .unlisted := by simp [s4,s3,s2,s1,State.create,State.setCtl,oldTwo]
    have free : lowestFree s4.procs = lowestFree s.procs := rfl
    simp [step,unlisted,free,inside,s5]
  refine ⟨s5,s.next+1,.next (.next (.next (.next (.next .initial trivial t1) trivial t2) trivial t3)
    trivial t4) trivial t5,?_,?_,?_⟩
  · simp [s5,s4,s3,s2,s1,State.create,State.setCtl]
  · simp [s5,s4,s3,s2,s1,add_eq,Procs.place,State.create]; rfl
  · simp [s5,s4,s3,s2,s1,add_eq,Procs.place,State.create]; rfl

theorem overrun_past_table : ∃ s new, Reached Transition.Free s ∧ s.ctl new = .unlisted ∧
    Indexed s (.list new) (lowestFree s.procs) ∧ ¬ lowestFree s.procs ≤ pidMax ∧
    ¬ lowestFree s.procs < maxProc := by
  obtain ⟨s,crowd⟩ := crowd_upto (procLimit-2) (by decide)
  have lowest := crowd.lowest
  have old : (0 : ProcId) < s.next ∧ (1 : ProcId) < s.next := by rw [crowd.next]; decide
  obtain ⟨after,new,path,made,largest,list⟩ := forks_race (crowd.running 0 (by decide))
    (crowd.running 1 (by decide)) (by decide) old
    (by simp only [checkProcLimit,crowd.count,beq_eq_false_iff_ne]; decide)
    (by rw [lowest]; decide)
  have reached : Reached Transition.Free after := crowd.path.trans path
  have top : after.procs.currentLargestPid = pidMax := by
    rw [largest,crowd.largest,lowest]
    decide
  have beyond : lowestFree after.procs = pidMax+1 := by
    rw [full_lowestFree (reached_valid reached).table,top]
    intro i low high
    rw [list]
    by_cases last : i = lowestFree s.procs
    · rw [last,update_self]; exact some_ne_none _
    rw [update_of_ne last]
    apply crowd.full i low
    rw [crowd.largest]
    rw [lowest] at last
    rw [top] at high
    unfold pidMax at high
    unfold procLimit at last ⊢
    omega
  exact ⟨after,new,reached,made,.place made,by rw [beyond]; decide,by rw [beyond]; decide⟩
end ToyOS.ProcLimit
