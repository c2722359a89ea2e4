import ToyOS.ProcChanges

namespace ToyOS.Parenthood
open ProcTable WaitStatus ProcMachine Option

def ForksSucceed (_ : State) : Event → Prop
  | .fail _ => False
  | _ => True

def Supervised (s : Procs) : Prop :=
  ∀ i p, s.activeProcList i = some p → (s.proc p).exit = true →
    ∃ q, s.activeProcList (s.proc p).parentPid = some q ∧ (s.proc q).exit = false

def Spares (s : State) : Event → Prop
  | .fail new => ∀ z, Listed s.procs z → (s.procs.proc z).exit = true →
      (s.procs.proc z).parentPid ≠ (s.procs.proc new).pid
  | _ => True

lemma ForksSucceed.spares (may : ForksSucceed s event) : Spares s event := by
  cases event with
  | fail new => cases may
  | _ => trivial

lemma change_supervised (ok : Valid s) (supervised : Supervised s.procs)
    (spares : Spares s event) (change : Change s event t) : Supervised t := by
  intro i z hit zombie
  cases change with
  | quiet _ list record =>
    rw [list] at hit
    rw [record z ⟨i,hit⟩] at zombie ⊢
    obtain ⟨q,parent,living⟩ := supervised i z hit zombie
    exact ⟨q,by rw [list]; exact parent,by rw [record q ⟨_,parent⟩]; exact living⟩
  | @list new _ made found' record =>
    have young := (ok.dummy new (.inl made)).2
    have ne : z ≠ new := by grind
    have pre : s.procs.activeProcList i = some z := by grind
    obtain ⟨q,parent,living⟩ := supervised i z pre (by grind)
    exact ⟨q,by grind,by grind⟩
  | adopt made by_ list record =>
    have young := (ok.dummy _ (.inr made)).2
    obtain ⟨q,parent,living⟩ := supervised i z (list ▸ hit) (by grind)
    exact ⟨q,by grind,by grind⟩
  | fail made found' record =>
    obtain ⟨pre,_⟩ := (found' i z).mp hit
    rw [record] at zombie ⊢
    obtain ⟨q,parent,living⟩ := supervised i z pre zombie
    refine ⟨q,(found' _ q).mpr ⟨parent,?_⟩,living⟩
    rintro rfl
    exact spares z ⟨i,pre⟩ zombie (ok.table.self _ _ parent).symm
  | exitAlone runs alone found' record =>
    obtain ⟨pre,kept,_⟩ := (found' i z).mp hit
    rw [record] at zombie ⊢
    obtain ⟨q,parent,living⟩ := supervised i z pre zombie
    have pid := ok.table.self _ q parent
    refine ⟨q,(found' _ q).mpr ⟨parent,by simp [exitedChild,living],?_⟩,living⟩
    -- a zombie under the exiting process has been cleaned up
    intro eq
    subst eq
    simp [exitedChild,zombie,pid] at kept
  | exitChild runs parent' alive found' record =>
    obtain ⟨pre,kept⟩ := (found' i z).mp hit
    rename_i p q' exitcode
    have pids := ok.table.self _ _ parent'
    have own := (ok.running runs).1
    by_cases self : z = p
    · subst self
      have apart : q' ≠ z := by
        intro eq
        subst eq
        simp [exitedChild,record,pids] at kept
      refine ⟨q',?_,by simpa [record,apart] using alive⟩
      rw [record,if_pos rfl]
      exact (found' _ q').mpr ⟨parent',by simp [exitedChild,record,apart,alive]⟩
    have recordZ : t.proc z = s.procs.proc z := by rw [record,if_neg self]
    rw [recordZ] at zombie kept ⊢
    obtain ⟨q,parent,living⟩ := supervised i z pre zombie
    have pid := ok.table.self _ q parent
    have apart : q ≠ p := by
      intro eq
      subst eq
      simp [exitedChild,zombie,pid] at kept
    exact ⟨q,(found' _ q).mpr ⟨parent,by simp [exitedChild,record,apart,living]⟩,by simpa [record,apart] using living⟩
  | reaped call tested exited found' record =>
    obtain ⟨pre,_⟩ := (found' i z).mp hit
    rw [record] at zombie ⊢
    obtain ⟨q,parent,living⟩ := supervised i z pre zombie
    refine ⟨q,(found' _ q).mpr ⟨parent,?_⟩,living⟩
    intro eq
    rw [eq,exited] at living
    cases living

lemma reached_supervised (path : Reached ForksSucceed s) : Supervised s.procs :=
  Transition.Reached.invariant (fun s => Supervised s.procs) path (fun _ _ hit => nomatch hit)
    fun prior supervised may did =>
      change_supervised (reached_valid prior) supervised may.spares (step_change (reached_valid prior) did)

lemma finished_empty (ok : Valid s) (supervised : Supervised s.procs)
    (exited : ∀ p < s.next, s.ctl p = .gone) (i : Int) : s.procs.activeProcList i = none := by
  have everyone : ∀ p, Listed s.procs p → (s.procs.proc p).exit := by
    intro p listed
    have dead : (s.ctl p).present = false := by
      rcases Nat.lt_or_ge p s.next with made | unmade
      · rw [exited p made]; rfl
      · rw [ok.fresh p unmade]; rfl
    rcases ok.listed p listed with there | ⟨_,zombie⟩
    · rw [dead] at there; cases there
    · exact zombie
  cases hit : s.procs.activeProcList i with
  | none => rfl
  | some p =>
    -- a last zombie would have a parent in the table that has not exited
    obtain ⟨q,parent,living⟩ := supervised i p hit (everyone p ⟨i,hit⟩)
    rw [everyone q ⟨_,parent⟩] at living
    cases living

theorem no_orphaned_zombies (path : Reached ForksSucceed s) :
    (∀ i p, s.procs.activeProcList i = some p → (s.procs.proc p).exit = true →
      pidMin ≤ (s.procs.proc p).parentPid ∧ (s.procs.proc p).parentPid ≤ pidMax ∧
      ∃ q, s.procs.activeProcList (s.procs.proc p).parentPid = some q ∧ (s.procs.proc q).exit = false) ∧
    ((∀ p, p < s.next → s.ctl p = .gone) → ∀ i, s.procs.activeProcList i = none) := by
  have valid := reached_valid path
  have supervised := reached_supervised path
  refine ⟨?_,finished_empty valid supervised⟩
  intro i p found zombie
  obtain ⟨q,parent,living⟩ := supervised i p found zombie
  obtain ⟨low,high⟩ := valid.table.bounds parent
  exact ⟨low,le_trans high valid.bound,q,parent,living⟩

def permitSuccess (_ : State) : Event → Bool
  | .fail _ => false
  | _ => true

lemma permitSuccess_sound (may : permitSuccess s event) : ForksSucceed s event := by
  cases event with
  | fail new => cases may
  | _ => trivial

theorem zombie_supervised : ∃ s, Reached ForksSucceed s ∧ s.procs.activeProcList 3 = some 1 ∧
    (s.procs.proc 1).exit = true ∧
    ∃ q, s.procs.activeProcList (s.procs.proc 1).parentPid = some q ∧ (s.procs.proc q).exit = false := by
  let history := Transition.run (Transition.guarded permitSuccess step) initial (family++[.exit 1 7])
  have facts : history.map (fun s => (s.procs.activeProcList 3,(s.procs.proc 1).exit)) =
    some (some 1,true) := by decide
  obtain ⟨s,ran,both⟩ := map_eq_some_iff.mp facts
  have path : Reached ForksSucceed s :=
    Transition.run_permitted (fun _ permitted => permitSuccess_sound permitted) .initial ran
  obtain ⟨slot,zombie⟩ := Prod.mk.inj both
  exact ⟨s,path,slot,zombie,((no_orphaned_zombies path).1 3 1 slot zombie).2.2⟩

def PidUnclaimed (s : State) : Event → Prop
  | .list _ => ∀ c, Listed s.procs c → (s.procs.proc c).parentPid ≠ lowestFree s.procs
  | _ => True

def TrueParents (s : State) : Prop :=
  ∀ c p, Listed s.procs c → s.procs.activeProcList (s.procs.proc c).parentPid = some p → s.maker c = some p

lemma step_trueParents (ok : Valid s) (parents : TrueParents s) (may : PidUnclaimed s event)
    (did : step s event = some after) : TrueParents after := by
  intro c p listed parent
  have keep (pre : Listed s.procs c) (pids : (after.procs.proc c).parentPid = (s.procs.proc c).parentPid)
      (there : s.procs.activeProcList (after.procs.proc c).parentPid = some p) :
      after.maker c = some p := by
    rw [step_maker did (ok.made pre)]
    exact parents c p pre (pids ▸ there)
  obtain ⟨i,slot⟩ := listed
  cases step_change ok did with
  | quiet _ list record =>
    rw [list] at slot parent
    exact keep ⟨i,slot⟩ (by rw [record c ⟨i,slot⟩]) parent
  | list made hit record =>
    have young := (ok.dummy _ (.inl made)).1
    have pids : (after.procs.proc c).parentPid = (s.procs.proc c).parentPid := by grind
    rcases (hit i c).mp slot with ⟨_,new⟩ | pre
    · -- the new process has no parent yet
      rw [pids,new,young] at parent
      rcases (hit _ p).mp parent with ⟨low,_⟩ | old
      · have least := (lowestFree_spec ok.table).1
        rw [←low] at least
        exact absurd least (by decide)
      rw [ok.table.below _ (by decide)] at old
      cases old
    rcases (hit _ p).mp parent with ⟨claimed,_⟩ | old
    · exact absurd (pids ▸ claimed) (may c ⟨i,pre⟩)
    · exact keep ⟨i,pre⟩ pids old
  | adopt made by_ list record =>
    rename_i new q
    rw [list] at slot parent
    by_cases here : c = new
    · subst here
      rw [record,if_pos rfl] at parent
      have there := ok.table.slot (ok.maker_present (by rw [made]; rfl) by_).2.1
      rw [step_maker did (ok.made ⟨i,slot⟩),by_,←there,←parent]
    · exact keep ⟨i,slot⟩ (by rw [record,if_neg here]) parent
  | fail made hit record => exact keep ⟨i,((hit i c).mp slot).1⟩ (by rw [record]) ((hit _ p).mp parent).1
  | exitAlone runs alone hit record => exact keep ⟨i,((hit i c).mp slot).1⟩ (by rw [record]) ((hit _ p).mp parent).1
  | exitChild runs living alive hit record =>
    have pids : (after.procs.proc c).parentPid = (s.procs.proc c).parentPid := by grind
    exact keep ⟨i,((hit i c).mp slot).1⟩ pids ((hit _ p).mp parent).1
  | reaped call tested exited hit record =>
    exact keep ⟨i,((hit i c).mp slot).1⟩ (by rw [record]) ((hit _ p).mp parent).1

lemma reached_trueParents (path : Reached PidUnclaimed s) : TrueParents s :=
  Transition.Reached.invariant TrueParents path (fun _ _ listed => nomatch listed.choose_spec)
    fun prior parents may did => step_trueParents (reached_valid prior) parents may did

-- Where a thread is in a proc_destroy that it has called without global_mutex: the slot is empty, current_largest_pid
-- has been compared with the pid, and it has been lowered if they were equal.
inductive Stage where
  | cleared
  | tested (largest : Bool)
  | lowered
  deriving DecidableEq

-- sys_fork and common_prog call it so when they fail after a creation. `destroying` are these calls.
structure Torn where
  machine : State
  destroying : List (ProcId × Stage)

-- A step under global_mutex, or one of the accesses of such a proc_destroy.
inductive Access where
  | locked (event : Event)
  | clear (new : ProcId)
  | test (new : ProcId)
  | lower (new : ProcId) (largest : Bool)
  | count (new : ProcId)

def failing (s : State) (new : ProcId) : Bool :=
  match s.ctl new,s.maker new with
  | .listed,none => true
  | .parented,some _ => true
  | _,_ => false

-- The event is not one of a creation that is being undone, and not the whole of proc_destroy.
def Torn.free (s : Torn) : Event → Bool
  | .adopt new => (s.destroying.lookup new).isNone
  | .start new => (s.destroying.lookup new).isNone
  | .fail _ => false
  | _ => true

def clearSlot (s : State) (new : ProcId) : State :=
  {s with procs := {s.procs with activeProcList := Function.update s.procs.activeProcList (s.procs.proc new).pid none}}

def lowerLargest (s : State) (largest : Bool) : State :=
  {s with procs := {s.procs with
    currentLargestPid := if largest then s.procs.currentLargestPid-1 else s.procs.currentLargestPid}}

def countDown (s : State) (new : ProcId) : State :=
  {s with
    procs := {s.procs with
      procCount := s.procs.procCount-1
      noProcSem := if s.procs.procCount-1 = 0 then s.procs.noProcSem+1 else s.procs.noProcSem}
    ctl := match s.maker new with
      | none => Function.update s.ctl new .gone
      | some p => Function.update (Function.update s.ctl new .gone) p .user}

def Torn.advance (s : Torn) (new : ProcId) (stage next : Stage) (machine : State) : Option Torn :=
  if (new,stage) ∈ s.destroying then some ⟨machine,(new,next) :: s.destroying.erase (new,stage)⟩ else none

def tornStep (s : Torn) : Access → Option Torn
  | .locked event => if s.free event then (step s.machine event).map fun machine => {s with machine} else none
  | .clear new =>
    if failing s.machine new = true ∧ (s.destroying.lookup new).isNone = true then
      some ⟨clearSlot s.machine new,(new,.cleared) :: s.destroying⟩
    else none
  | .test new => s.advance new .cleared
      (.tested ((s.machine.procs.proc new).pid == s.machine.procs.currentLargestPid)) s.machine
  | .lower new largest => s.advance new (.tested largest) .lowered (lowerLargest s.machine largest)
  | .count new =>
    if (new,.lowered) ∈ s.destroying then some ⟨countDown s.machine new,s.destroying.erase (new,.lowered)⟩ else none

-- Nobody else takes a step while a process is being destroyed, and no pid is handed out that is still a parent_pid.
def Orderly (s : Torn) : Access → Prop
  | .locked event => s.destroying = [] ∧ PidUnclaimed s.machine event
  | .clear _ => s.destroying = []
  | _ => True

def TornReached (s : Torn) : Prop := Transition.Reached tornStep Orderly ⟨initial,[]⟩ s

-- The accesses so far are those of one step of the machine in which proc_destroy is not interrupted.
inductive Underway (origin : State) (new : ProcId) : Torn → Prop where
  | cleared : Underway origin new ⟨clearSlot origin new,[(new,.cleared)]⟩
  | tested : Underway origin new ⟨clearSlot origin new,
      [(new,.tested ((origin.procs.proc new).pid == origin.procs.currentLargestPid))]⟩
  | lowered : Underway origin new ⟨lowerLargest (clearSlot origin new)
      ((origin.procs.proc new).pid == origin.procs.currentLargestPid),[(new,.lowered)]⟩

lemma destroyed_fail (fails : failing s new) : step s (.fail new) = some (countDown
    (lowerLargest (clearSlot s new) ((s.procs.proc new).pid == s.procs.currentLargestPid)) new) := by
  unfold failing at fails
  split at fails
  · rename_i listed none_
    simp [step,listed,none_,countDown,lowerLargest,clearSlot,procDestroy,State.setCtl]
  · rename_i parented some_
    simp [step,parented,some_,countDown,lowerLargest,clearSlot,procDestroy,State.setCtl]
  · cases fails

def Whole (s : Torn) : Prop :=
  s.destroying = [] ∧ Reached PidUnclaimed s.machine ∨
    ∃ origin new, Reached PidUnclaimed origin ∧ failing origin new ∧ Underway origin new s

lemma tornStep_whole (whole : Whole s) (may : Orderly s access) (did : tornStep s access = some after) :
    Whole after := by
  rcases whole with ⟨idle,path⟩ | ⟨origin,new,path,fails,underway⟩
  · obtain ⟨machine,_⟩ := s
    cases idle
    cases access with
    | locked event =>
      rw [tornStep] at did
      split at did
      · obtain ⟨next,taken,rfl⟩ := map_eq_some_iff.mp did
        exact .inl ⟨rfl,path.next may.2 taken⟩
      · cases did
    | clear new =>
      rw [tornStep] at did
      split at did
      · rename_i fails
        cases did
        exact .inr ⟨machine,new,path,fails.1,.cleared⟩
      · cases did
    | _ => simp [tornStep,Torn.advance] at did
  cases access with
  | locked event => cases underway <;> cases may.1
  | clear => cases underway <;> cases may
  | test p =>
    cases underway <;> simp [tornStep,Torn.advance] at did
    obtain ⟨rfl,rfl⟩ := did
    exact .inr ⟨origin,_,path,fails,by simpa [clearSlot] using Underway.tested⟩
  | lower p largest =>
    cases underway <;> simp [tornStep,Torn.advance] at did
    obtain ⟨⟨rfl,rfl⟩,rfl⟩ := did
    exact .inr ⟨origin,_,path,fails,by simpa using Underway.lowered⟩
  | count p =>
    cases underway <;> simp [tornStep] at did
    obtain ⟨rfl,rfl⟩ := did
    exact .inl ⟨by simp,path.next (show PidUnclaimed origin (.fail p) from trivial) (destroyed_fail fails)⟩

lemma tornReached_whole (path : TornReached s) : Whole s :=
  Transition.Reached.invariant Whole path (.inl ⟨rfl,.initial⟩) fun _ whole may did => tornStep_whole whole may did

theorem waitpid_reaps_forked_children (path : TornReached s) (may : Orderly s (.locked event))
    (called : outcome s.machine event = some (p,.reaped child word)) : s.machine.maker child = some p := by
  have path : Reached PidUnclaimed s.machine := by
    rcases tornReached_whole path with ⟨_,path⟩ | ⟨_,_,_,_,underway⟩
    · exact path
    · cases underway <;> cases may.1
  have valid := reached_valid path
  obtain ⟨⟨listed,own⟩,_,_⟩ := outcome_reaped valid called
  have caller := (valid.present p (idle_cases (outcome_idle called)).1).1
  exact reached_trueParents path child p listed (own ▸ valid.table.slot caller)

def unclaimed (s : Procs) (pid : Int) : Bool :=
  (List.range (s.currentLargestPid-1).toNat).all fun k => match s.activeProcList (k+2) with
    | none => true
    | some c => (s.proc c).parentPid != pid

lemma unclaimed_sound (ok : TableValid s) (scanned : unclaimed s pid) (listed : Listed s c) :
    (s.proc c).parentPid ≠ pid := by
  obtain ⟨low,high⟩ := ok.pid_bounds listed
  have slot := ok.slot listed
  unfold pidMin at low
  have index : (((s.proc c).pid-2).toNat : Int)+2 = (s.proc c).pid := by omega
  have hit := List.all_eq_true.mp scanned ((s.proc c).pid-2).toNat (List.mem_range.mpr (by omega))
  rw [index,slot] at hit
  simpa using hit

def permitUnclaimed (s : State) : Event → Bool
  | .list _ => unclaimed s.procs (lowestFree s.procs)
  | _ => true

lemma permitUnclaimed_sound (path : Reached PidUnclaimed s) (may : permitUnclaimed s event) : PidUnclaimed s event := by
  cases event with
  | list new => exact fun c listed => unclaimed_sound (reached_valid path).table may listed
  | _ => trivial

def permitOrderly (s : Torn) : Access → Bool
  | .locked event => s.destroying.isEmpty && permitUnclaimed s.machine event
  | .clear _ => s.destroying.isEmpty
  | _ => true

lemma permitOrderly_sound (path : TornReached s) (may : permitOrderly s access) : Orderly s access := by
  cases access with
  | locked event =>
    obtain ⟨idle,unclaimed⟩ := Bool.and_eq_true_iff.mp may
    have idle := List.isEmpty_iff.mp idle
    rcases tornReached_whole path with ⟨_,path⟩ | ⟨_,_,_,_,underway⟩
    · exact ⟨idle,permitUnclaimed_sound path unclaimed⟩
    · cases underway <;> cases idle
  | clear => exact List.isEmpty_iff.mp may
  | _ => trivial

-- A fork fails between two that do not.
theorem zombie_reaped_by_maker : ∃ s, TornReached s ∧
    outcome s.machine (.wait 0 3 0x10000000 0 smallView) = some (0,.reaped 1 (mkwaitExit 7)) ∧
    s.machine.maker 1 = some 0 := by
  let history := Transition.run (Transition.guarded permitOrderly tornStep) ⟨initial,[]⟩
    (family.map .locked++([.check 0,.create (some 0),.list 2,.adopt 2] : List Event).map .locked++
    [.clear 2,.test 2,.lower 2 true,.count 2]++([.check 0,.create (some 0),.list 3,.adopt 3,.start 3,.exit 1 7] :
      List Event).map .locked)
  have facts : history.map (fun s => (s.destroying.isEmpty,outcome s.machine (.wait 0 3 0x10000000 0 smallView))) =
    some (true,some (0,.reaped 1 (mkwaitExit 7))) := by decide +kernel
  obtain ⟨s,ran,values⟩ := map_eq_some_iff.mp facts
  obtain ⟨idle,called⟩ := Prod.mk.inj values
  have path : TornReached s := Transition.run_permitted permitOrderly_sound .initial ran
  have may : Orderly s (.locked (.wait 0 3 0x10000000 0 smallView)) := ⟨List.isEmpty_iff.mp idle,trivial⟩
  exact ⟨s,path,called,waitpid_reaps_forked_children path may called⟩

def adoption : List Event :=
  family++[.exit 0 0,.check 1,.create (some 1),.list 2,.adopt 2,.start 2,.exit 1 5]

theorem adoption_reaps_stranger : ∃ s, Transition.Reached tornStep Transition.Free ⟨initial,[]⟩ s ∧ s.destroying = [] ∧
    outcome s.machine (.wait 2 3 0x10000000 0 smallView) = some (2,.reaped 1 (mkwaitExit 5)) ∧
    s.machine.maker 1 = some 0 := by
  have facts : (Transition.run tornStep ⟨initial,[]⟩ (adoption.map .locked)).map
      (fun s => (s.destroying.isEmpty,outcome s.machine (.wait 2 3 0x10000000 0 smallView),s.machine.maker 1)) =
    some (true,some (2,.reaped 1 (mkwaitExit 5)),some 0) := by decide +kernel
  obtain ⟨s,ran,values⟩ := map_eq_some_iff.mp facts
  simp only [Prod.mk.injEq,List.isEmpty_iff] at values
  exact ⟨s,Transition.run_reached ran,values⟩
end ToyOS.Parenthood
