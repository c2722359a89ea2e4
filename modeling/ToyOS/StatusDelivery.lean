import ToyOS.ProcChanges

namespace ToyOS.StatusDelivery
open Function ProcTable WaitStatus UserCopy ProcMachine Option

lemma step_gone (ok : Valid s) (did : step s event = some after) (gone : s.ctl p = .gone) : after.ctl p = .gone := by
  have move := step_move ok did p
  rw [gone] at move
  generalize after.ctl p = now at move ⊢
  cases move with
  | stay => rfl
  | failed made => rfl
  | runs old _ => cases old

lemma step_thread (ok : Valid s) (did : step s event = some after) (thread : (s.ctl p).thread) :
    (after.ctl p).thread ∨ (after.ctl p = .gone ∧ ∃ exitcode, event = .exit p exitcode) := by
  have move := step_move ok did p
  generalize s.ctl p = was,after.ctl p = now at move thread ⊢
  cases move with
  | stay => exact .inl thread
  | made | listed | parented _ | spawned _ | forked _ => cases thread
  | failed made => rcases made with ⟨same,_⟩ | same <;> (rw [same] at thread; cases thread)
  | runs _ new => exact .inl new
  | exits call => exact .inr ⟨rfl,_,call⟩

lemma step_pid (ok : Valid s) (did : step s event = some after)
    (hit : Listed s.procs p) : (after.procs.proc p).pid = (s.procs.proc p).pid := by
  cases step_change ok did with
  | quiet _ _ record => rw [record p hit]
  | list made _ record =>
    rw [record,if_neg]
    intro eq
    exact ok.unlisted (by rw [made]; rfl) (by rw [made]; nofun) (eq ▸ hit)
  | adopt _ _ _ record => grind
  | fail _ _ record => rw [record]
  | exitAlone _ _ _ record => rw [record]
  | exitChild _ _ _ _ record => grind
  | reaped _ _ _ _ record => rw [record]

-- History and table agree on parents as long as the parent has not exited.
structure Kin (s : State) : Prop where
  apart : ∀ c, s.maker c ≠ some c
  runs : ∀ c p, s.maker c = some p → (s.ctl p).thread = true ∨ s.ctl p = .gone
  pids : ∀ c p, Listed s.procs c → s.ctl c ≠ .listed → s.maker c = some p → s.ctl p ≠ .gone →
    (s.procs.proc c).parentPid = (s.procs.proc p).pid

lemma initial_kin : Kin initial :=
  ⟨fun _ => nofun,fun _ _ made => (nomatch made),fun _ _ _ _ made => (nomatch made)⟩

lemma step_makers (did : step s event = some after) (made : after.maker c = some p) :
    s.maker c = some p ∨ (c = s.next ∧ s.ctl p = .checked) := by
  cases step_sound did with
  | spawn =>
    by_cases here : c = s.next
    · simp [State.create,here] at made
    · exact .inl (by simpa [State.create,here] using made)
  | fork passed =>
    by_cases here : c = s.next
    · refine .inr ⟨here,?_⟩
      simp only [State.create,setCtl_next,here,update_self,some.injEq] at made
      exact made ▸ passed
    · exact .inl (by simpa [State.create,here] using made)
  | _ => exact .inl made

lemma step_runs (ok : Valid s) (kin : Kin s) (did : step s event = some after)
    (made : after.maker c = some p) : (after.ctl p).thread ∨ after.ctl p = .gone := by
  have pre : (s.ctl p).thread ∨ s.ctl p = .gone := by
    rcases step_makers did made with pre | ⟨_,passed⟩
    · exact kin.runs c p pre
    · exact .inl (by rw [passed]; rfl)
  rcases pre with thread | gone
  · exact (step_thread ok did thread).imp_right And.left
  · exact .inr (step_gone ok did gone)

lemma step_adopts (ok : Valid s) (did : step s event = some after) (was : s.ctl c = .listed)
    (now : after.ctl c ≠ .listed) (made : s.maker c = some p) : event = .adopt c := by
  have move := step_move ok did c
  rw [was,made] at move
  generalize after.ctl c = d at move now
  cases move with
  | stay => exact absurd rfl now
  | parented call => exact call
  | spawned by_ => cases by_
  | failed made => rcases made with ⟨_,no⟩ | no <;> cases no
  | runs old _ => cases old

lemma step_listed (ok : Valid s) (did : step s event = some after)
    (listed : Listed after.procs c) : Listed s.procs c ∨ s.ctl c = .unlisted := by
  obtain ⟨i,slot⟩ := listed
  cases step_change ok did with
  | quiet _ list _ => exact .inl ⟨i,list ▸ slot⟩
  | list made hit _ =>
    rcases (hit i c).mp slot with ⟨_,new⟩ | pre
    · exact .inr (new ▸ made)
    · exact .inl ⟨i,pre⟩
  | adopt _ _ list _ => exact .inl ⟨i,list ▸ slot⟩
  | fail _ hit _ => exact .inl ⟨i,((hit i c).mp slot).1⟩
  | exitAlone _ _ hit _ => exact .inl ⟨i,((hit i c).mp slot).1⟩
  | exitChild _ _ _ hit _ | reaped _ _ _ hit _ => exact .inl ⟨i,((hit i c).mp slot).1⟩

lemma step_parentPid (ok : Valid s) (did : step s event = some after) (listed : Listed s.procs c)
    (ne : event ≠ .adopt c) : (after.procs.proc c).parentPid = (s.procs.proc c).parentPid := by
  cases step_change ok did with
  | quiet _ _ record => rw [record c listed]
  | list _ _ record => grind
  | adopt _ _ _ record => grind
  | fail _ _ record => rw [record]
  | exitAlone _ _ _ record => rw [record]
  | exitChild _ _ _ _ record => grind
  | reaped _ _ _ _ record => rw [record]

lemma adopt_parentPid (did : step s (.adopt c) = some after)
    (made : s.maker c = some p) : (after.procs.proc c).parentPid = (s.procs.proc p).pid := by
  cases step_sound did with
  | adopt was by_ =>
    cases by_.symm.trans made
    simp [Procs.set]
  | error call | sleep call | reaped call => cases call

lemma step_kin (ok : Valid s) (kin : Kin s) (did : step s event = some after) : Kin after := by
  refine ⟨?_,fun c p made => step_runs ok kin did made,?_⟩
  · intro c made
    rcases step_makers did made with pre | ⟨new,passed⟩
    · exact kin.apart c pre
    rw [new,ok.fresh s.next le_rfl] at passed
    cases passed
  intro c p listed past made living
  have alive : s.ctl p ≠ .gone := fun gone => living (step_gone ok did gone)
  -- a process that has just entered the table is still merely listed
  have pre : Listed s.procs c := by
    rcases step_listed ok did listed with pre | unlisted
    · exact pre
    have move := step_move ok did c
    rw [unlisted] at move
    rcases (step_valid ok did).listed c listed with hit | ⟨gone,_⟩
    · generalize after.ctl c = now at move hit past
      cases move with
      | stay => cases hit
      | listed => exact absurd rfl past
      | runs old _ => cases old
      | failed made => rcases made with ⟨no,_⟩ | no <;> cases no
    rw [gone] at move
    cases move with
    | failed made => rcases made with ⟨no,_⟩ | no <;> cases no
    | runs old _ => cases old
  have maker : s.maker c = some p := (step_maker did (ok.made pre)).symm.trans made
  have parent : Listed s.procs p := by
    rcases kin.runs c p maker with thread | gone
    · exact (ok.present p (thread_present thread)).1
    · exact absurd gone alive
  rw [step_pid ok did parent]
  by_cases adopted : event = .adopt c
  · subst adopted
    exact adopt_parentPid did maker
  rw [step_parentPid ok did pre adopted]
  refine kin.pids c p pre ?_ maker alive
  intro was
  exact adopted (step_adopts ok did was past maker)

lemma reached_kin (path : Reached allowed s) : Kin s :=
  Transition.Reached.invariant Kin path initial_kin fun prior kin _ did => step_kin (reached_valid prior) kin did

lemma exit_runs (ok : Valid s) (running : s.ctl p = .user) (exitcode : BitVec 32) :
    ∃ after, step s (.exit p exitcode) = some after := by
  have runs : ∃ res, sysExit s.procs p exitcode = some res := by
    unfold sysExit isAlone
    rcases ok.parent p (ok.running running).1 with dummy | ⟨low,high⟩
    · simp [dummy]
    have ne : (s.procs.proc p).parentPid ≠ -1 := by
      intro dummy
      rw [dummy] at low
      exact absurd low (by decide)
    have range : (s.procs.proc p).parentPid ≤ pidMax ∧ pidMin ≤ (s.procs.proc p).parentPid := ⟨high,low⟩
    cases slot : s.procs.activeProcList (s.procs.proc p).parentPid with
    | none => simp [ne,parentChecker,range,slot]
    | some q => cases exited : (s.procs.proc q).exit <;>
        simp [ne,parentChecker,findProc,range,slot,exited]
  obtain ⟨res,ran⟩ := runs
  simp [step,running,ran]

-- `c` has exited and `p`, its living parent, has not reaped it yet.
structure Pending (s : State) (p c : ProcId) (pid : Int) (word : BitVec 32) : Prop where
  slot : s.procs.activeProcList pid = some c
  exited : (s.procs.proc c).exit = true
  code : (s.procs.proc c).exitcode = word
  own : (s.procs.proc c).parentPid = (s.procs.proc p).pid
  parent : (s.ctl p).thread = true

lemma exit_pending (ok : Valid s) (kin : Kin s) (running : s.ctl c = .user) (forked : s.maker c = some p)
    (alive : s.ctl p ≠ .gone) (did : step s (.exit c exitcode) = some after) :
    Pending after p c (s.procs.proc c).pid (mkwaitExit exitcode) := by
  have listed := (ok.running running).1
  have thread : (s.ctl p).thread := (kin.runs c p forked).resolve_right alive
  obtain ⟨parent,living⟩ := ok.present p (thread_present thread)
  have own := kin.pids c p listed (by rw [running]; nofun) forked alive
  have slot := ok.table.slot parent
  have apart : p ≠ c := fun eq => kin.apart c (eq ▸ forked)
  have threadAfter : (after.ctl p).thread := by
    rcases step_thread ok did thread with still | ⟨_,_,call⟩
    · exact still
    · cases call; exact absurd rfl apart
  have ownAfter : (after.procs.proc c).parentPid = (after.procs.proc p).pid := by
    rw [step_parentPid ok did listed nofun,step_pid ok did parent]
    exact own
  have ne : (s.procs.proc c).parentPid ≠ (s.procs.proc c).pid := by
    intro eq
    exact apart (ok.same parent listed (own.symm.trans eq))
  cases step_change ok did with
  | quiet calm _ _ => cases calm
  | exitAlone _ alone _ _ =>
    rcases alone with dummy | dead
    · have range := (ok.table.pid_bounds parent).1
      rw [←own,dummy] at range
      exact absurd range (by decide)
    rw [own] at dead
    rw [dead p slot] at living
    cases living
  | exitChild _ _ _ hit record =>
    refine ⟨?_,by simp [record],by simp [record],ownAfter,threadAfter⟩
    exact (hit _ c).mpr ⟨ok.table.slot listed,by simp [exitedChild,record,ne]⟩
  | reaped call _ _ _ _ => cases call

def Undelivered (p c : ProcId) (s : State) (event : Event) : Prop :=
  (∀ exitcode, event ≠ .exit p exitcode) ∧ ∀ word, outcome s event ≠ some (p,.reaped c word)

lemma step_pending (ok : Valid s) (pending : Pending s p c pid word) (may : Undelivered p c s event)
    (did : step s event = some after) : Pending after p c pid word := by
  have listed : Listed s.procs c := ⟨pid,pending.slot⟩
  have parent := (ok.present p (thread_present pending.parent)).1
  have dead := ok.zombie_gone listed pending.exited
  have threadAfter : (after.ctl p).thread := by
    rcases step_thread ok did pending.parent with still | ⟨_,exitcode,call⟩
    · exact still
    · exact absurd call (may.1 exitcode)
  have notAdopted : event ≠ .adopt c := by
    intro eq
    subst eq
    cases step_sound did with
    | adopt made _ => rw [dead] at made; cases made
    | error call | sleep call | reaped call => cases call
  have ownAfter : (after.procs.proc c).parentPid = (after.procs.proc p).pid := by
    rw [step_parentPid ok did listed notAdopted,step_pid ok did parent]
    exact pending.own
  -- an exit cleans up the children of the exiting process, which is not `p`
  have kept {q exitcode} (eq : event = .exit q exitcode) (runs : s.ctl q = .user) :
      exitedChild (s.procs.proc q).pid (s.procs.proc c) = false := by
    have stranger : (s.procs.proc p).pid ≠ (s.procs.proc q).pid := by
      intro pids
      cases ok.same parent (ok.running runs).1 pids
      exact may.1 exitcode eq
    simp [exitedChild,pending.own,stranger]
  cases step_change ok did with
  | quiet _ list record =>
    have record := record c listed
    exact ⟨list ▸ pending.slot,record ▸ pending.exited,record ▸ pending.code,ownAfter,threadAfter⟩
  | list made hit record =>
    have slot := (hit pid c).mpr (.inr pending.slot)
    exact ⟨slot,by grind [pending.exited],by grind [pending.code],ownAfter,threadAfter⟩
  | adopt made by_ list record =>
    exact ⟨list ▸ pending.slot,by grind [pending.exited],by grind [pending.code],ownAfter,threadAfter⟩
  | fail made hit record =>
    refine ⟨(hit pid c).mpr ⟨pending.slot,?_⟩,record ▸ pending.exited,record ▸ pending.code,ownAfter,threadAfter⟩
    intro eq
    subst eq
    rcases made with made | made <;> (rw [dead] at made; cases made)
  | exitAlone runs alone hit record =>
    refine ⟨(hit pid c).mpr ⟨pending.slot,kept rfl runs,?_⟩,record ▸ pending.exited,
      record ▸ pending.code,ownAfter,threadAfter⟩
    intro eq
    rw [←eq,dead] at runs
    cases runs
  | exitChild runs _ _ hit record =>
    have eq : after.procs.proc c = s.procs.proc c := by
      rw [record,if_neg]
      intro self
      rw [←self,dead] at runs
      cases runs
    exact ⟨(hit pid c).mpr ⟨pending.slot,eq ▸ kept rfl runs⟩,eq ▸ pending.exited,
      eq ▸ pending.code,ownAfter,threadAfter⟩
  | reaped call tested exited hit record =>
    refine ⟨(hit pid c).mpr ⟨pending.slot,?_⟩,record ▸ pending.exited,record ▸ pending.code,ownAfter,threadAfter⟩
    intro eq
    subst eq
    have caller := (ok.present _ (idle_cases (outcome_idle call)).1).1
    cases ok.same parent caller (pending.own.symm.trans tested.2)
    exact may.2 _ call

lemma reached_pending (ok : Valid s) (pending : Pending s p c pid word)
    (path : Transition.Reached step (Undelivered p c) s after) : Valid after ∧ Pending after p c pid word :=
  Transition.Reached.invariant (fun s => Valid s ∧ Pending s p c pid word) path ⟨ok,pending⟩
    fun _ both may did => ⟨step_valid both.1 did,step_pending both.1 both.2 may did⟩

lemma pending_wait (ok : Valid s) (pending : Pending s p c pid word) (runs : s.ctl p = .user)
    (writable : Writable view.cpu status.toNat sizeofInt) :
    outcome s (.wait p pid status 0 view) = some (p,.reaped c word) := by
  obtain ⟨low,high⟩ := ok.table.bounds pending.slot
  have range : pid ≤ pidMax ∧ pidMin ≤ pid := ⟨le_trans high ok.bound,low⟩
  simp [outcome,runs,sysWaitpid,findProc,range,pending.slot,pending.own,
    waitChild_writable pending.exited writable,pending.code]

def Buried (c : ProcId) (s : State) : Prop := Valid s ∧ s.ctl c = .gone ∧ ¬ Listed s.procs c

lemma step_buried (buried : Buried c s) (did : step s event = some after) : Buried c after := by
  obtain ⟨ok,gone,absent⟩ := buried
  refine ⟨step_valid ok did,step_gone ok did gone,?_⟩
  intro listed
  rcases step_listed ok did listed with pre | unlisted
  · exact absent pre
  · rw [gone] at unlisted; cases unlisted

lemma reached_buried (buried : Buried c s) (path : Transition.Reached step allowed s after) : Buried c after :=
  Transition.Reached.invariant (Buried c) path buried fun _ buried _ did => step_buried buried did

def DeliversOnce (s : State) (event : Event) (p c : ProcId) (e : Int) : Prop :=
  ∃ word after, outcome s event = some (p,.reaped c word) ∧ wifexited word = true ∧
    (wexitstatus word).toInt = e ∧ step s event = some after ∧
    ∀ later, Transition.Reached step Transition.Free after later → ¬ Listed later.procs c ∧
      ∀ event q word, outcome later event ≠ some (q,.reaped c word)

lemma reaped_step (call : outcome s event = some (p,.reaped c word)) :
    step s event = some {s.setCtl p .user with procs := procDestroy s.procs c} := by
  cases event with
  | wait q pid status options view =>
    simp only [outcome] at call
    split at call
    · rename_i runs
      obtain ⟨rfl,res⟩ := Prod.mk.inj (some.inj call)
      simp [step,runs,res,State.answer]
    · cases call
  | resume q view =>
    simp only [outcome] at call
    split at call
    · rename_i held
      obtain ⟨rfl,res⟩ := Prod.mk.inj (some.inj call)
      simp [step,held,res,State.answer]
    · cases call
  | _ => cases call

lemma pending_delivers (ok : Valid s) (pending : Pending s p c pid (mkwaitExit (BitVec.ofInt 32 e))) (low : -2^29 ≤ e)
    (high : e < 2^29) (call : outcome s event = some (p,.reaped c (mkwaitExit (BitVec.ofInt 32 e)))) :
    DeliversOnce s event p c e := by
  have did := reaped_step call
  have listed : Listed s.procs c := ⟨pid,pending.slot⟩
  refine ⟨_,_,call,mkwaitExit_exited _,mkwaitExit_status low high,did,?_⟩
  have absent : ¬ Listed (procDestroy s.procs c) c := fun hit => ((listed_destroy ok.table listed).mp hit).2 rfl
  have gone := ok.zombie_gone listed pending.exited
  intro later path
  have buried := reached_buried ⟨step_valid ok did,step_gone ok did gone,absent⟩ path
  refine ⟨buried.2.2,?_⟩
  intro event q word again
  exact buried.2.2 (outcome_reaped buried.1 again).1.1

theorem exit_status_delivered_once (path : Reached allowed s) (running : s.ctl c = .user)
    (forked : s.maker c = some p) (alive : s.ctl p ≠ .gone) (low : -2^29 ≤ e) (high : e < 2^29) :
    ∃ t, step s (.exit c (BitVec.ofInt 32 e)) = some t ∧
      ∀ u, Transition.Reached step (Undelivered p c) t u →
        u.procs.activeProcList (s.procs.proc c).pid = some c ∧
        (u.ctl p = .user → ∀ status view, Writable view.cpu status.toNat sizeofInt →
          DeliversOnce u (.wait p (s.procs.proc c).pid status 0 view) p c e) ∧
        (∀ status asleep, u.ctl p = .waiting c status asleep → asleep = false ∧
          ∀ view, Writable view.cpu status.toNat sizeofInt → DeliversOnce u (.resume p view) p c e) := by
  have valid := reached_valid path
  obtain ⟨t,taken⟩ := exit_runs valid running (BitVec.ofInt 32 e)
  have exited := exit_pending valid (reached_kin path) running forked alive taken
  refine ⟨t,taken,?_⟩
  intro u later
  obtain ⟨validU,pending⟩ := reached_pending (step_valid valid taken) exited later
  refine ⟨pending.slot,?_,?_⟩
  · intro calls status view writable
    exact pending_delivers validU pending low high (pending_wait validU pending calls writable)
  intro status asleep held
  have awake := (validU.waiting p c status asleep held).2.2 pending.exited
  subst awake
  refine ⟨rfl,fun view writable => pending_delivers validU pending low high ?_⟩
  simp [outcome,held,waitChild_writable pending.exited writable,pending.code]

theorem family_status_delivered : ∃ s t, Reached Transition.Free s ∧ s.maker 1 = some 0 ∧
    step s (.exit 1 (BitVec.ofInt 32 (-7))) = some t ∧
    DeliversOnce t (.wait 0 (s.procs.proc 1).pid 0x10000000 0 smallView) 0 1 (-7) := by
  have facts : (Transition.run step initial family).map
      (fun s => (s.maker 1,s.ctl 0,s.ctl 1,(step s (.exit 1 (BitVec.ofInt 32 (-7)))).map (·.ctl 0))) =
    some (some 0,.user,.user,some .user) := by decide
  obtain ⟨s,ran,all⟩ := map_eq_some_iff.mp facts
  simp only [Prod.mk.injEq] at all
  obtain ⟨maker,parent,running,after⟩ := all
  have path : Reached Transition.Free s := Transition.run_reached ran
  obtain ⟨t,taken,delivery⟩ := exit_status_delivered_once path running maker
    (by rw [parent]; nofun) (by decide : (-2 : Int)^29 ≤ -7) (by decide)
  have calls : t.ctl 0 = .user := by
    rw [taken] at after
    exact some.inj after
  refine ⟨s,t,path,maker,taken,(delivery t .initial).2.1 calls _ _ ?_⟩
  exact ⟨by decide,by decide +kernel⟩
end ToyOS.StatusDelivery
