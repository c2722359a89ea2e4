import ToyOS.Library.Transition

namespace ToyOS.ProcTable
open Function Option

def pidMin : Int := 2
def pidMax : Int := 32767
def maxProc : Int := 32768
def procLimit : Nat := 32766

-- A `struct proc *`. Addresses of freed structures are never used again here: an identity names one process for the
-- whole history.
abbrev ProcId := Nat

-- The fields of struct proc that the process system calls read. `exit` is only ever 0 or 1; parent_pid is -1 until
-- sys_fork assigns it.
structure Proc where
  pid : Int
  parentPid : Int
  exit : Bool
  exitcode : BitVec 32
  deriving DecidableEq

def newProc : Proc := ⟨0,-1,false,0⟩

-- The statics of proc.c: the structures in memory, active_proc_list (NULL is `none`), current_largest_pid, proc_count
-- and the count of no_proc_sem.
structure Procs where
  proc : ProcId → Proc
  activeProcList : Int → Option ProcId
  currentLargestPid : Int
  procCount : Nat
  noProcSem : Nat

def procBootstrap : Procs :=
  {proc := fun _ => newProc,activeProcList := fun _ => none,currentLargestPid := 2,
   procCount := 0,noProcSem := 0}

def Procs.set (s : Procs) (p : ProcId) (value : Proc) : Procs := {s with proc := update s.proc p value}

def firstNull (list : Int → Option ProcId) : Nat → Int → Option Int
  | 0,_ => none
  | n+1,i => match list i with
    | none => some i
    | some _ => firstNull list n (i+1)

def Procs.place (s : Procs) (new : ProcId) (i : Int) : Procs :=
  {s with
    proc := update s.proc new {s.proc new with pid := i}
    activeProcList := update s.activeProcList i (some new)}

def addToActiveProcList (s : Procs) (new : ProcId) : Procs :=
  match firstNull s.activeProcList (s.currentLargestPid-1).toNat 2 with
  | some i => s.place new i
  | none => {s with currentLargestPid := s.currentLargestPid+1}.place new (s.currentLargestPid+1)

def procDestroy (s : Procs) (p : ProcId) : Procs :=
  {s with
    activeProcList := update s.activeProcList (s.proc p).pid none
    currentLargestPid :=
      if (s.proc p).pid = s.currentLargestPid then s.currentLargestPid-1 else s.currentLargestPid
    procCount := s.procCount-1
    noProcSem := if s.procCount-1 = 0 then s.noProcSem+1 else s.noProcSem}

def checkProcLimit (s : Procs) : Bool := s.procCount == procLimit

def findProc (s : Procs) (pid : Int) : Option (Option ProcId) :=
  if pid ≤ pidMax ∧ pidMin ≤ pid then some (s.activeProcList pid) else none

def parentChecker (s : Procs) (pid : Int) : Option Bool :=
  if pid ≤ pidMax ∧ pidMin ≤ pid then
    match s.activeProcList pid with
    | some p => some (!(s.proc p).exit)
    | none => some false
  else none

def exitedChild (pid : Int) (r : Proc) : Bool := r.parentPid == pid && r.exit

def cleanupSlot (pid : Int) (s : Procs) (i : Int) : Procs :=
  match s.activeProcList i with
  | none => s
  | some p => if exitedChild pid (s.proc p) then procDestroy s p else s

def cleanupFrom (pid : Int) : Nat → Int → Procs → Procs
  | 0,_,s => s
  | n+1,i,s =>
    if i ≤ s.currentLargestPid then cleanupFrom pid n (i+1) (cleanupSlot pid s i) else s

def exitedChildrenCleanup (s : Procs) (pid : Int) : Procs :=
  cleanupFrom pid (s.currentLargestPid-1).toNat 2 s

def Listed (s : Procs) (p : ProcId) : Prop := ∃ i, s.activeProcList i = some p
def members (s : Procs) : Set ProcId := {p | Listed s p}

-- Everything about the table that does not depend on the number of processes. current_largest_pid may point at an empty
-- slot.
structure TableValid (s : Procs) : Prop where
  low : 1 ≤ s.currentLargestPid
  above : ∀ i, s.currentLargestPid < i → s.activeProcList i = none
  below : ∀ i, i < pidMin → s.activeProcList i = none
  self : ∀ i p, s.activeProcList i = some p → (s.proc p).pid = i

lemma procBootstrap_valid : TableValid procBootstrap :=
  ⟨by decide,fun _ _ => rfl,fun _ _ => rfl,fun _ _ hit => nomatch hit⟩

lemma TableValid.unique (valid : TableValid s) (one : s.activeProcList i = some p)
    (two : s.activeProcList j = some p) : i = j :=
  (valid.self i p one).symm.trans (valid.self j p two)

lemma TableValid.bounds (valid : TableValid s) (hit : s.activeProcList i = some p) :
    pidMin ≤ i ∧ i ≤ s.currentLargestPid := by
  constructor
  · by_contra low
    rw [valid.below i (by omega)] at hit
    cases hit
  by_contra high
  rw [valid.above i (by omega)] at hit
  cases hit

lemma TableValid.slot (valid : TableValid s) (listed : Listed s p) : s.activeProcList (s.proc p).pid = some p := by
  obtain ⟨i,hit⟩ := listed
  rwa [valid.self i p hit]

lemma firstNull_some (hit : firstNull list n i = some k) :
    i ≤ k ∧ k < i+n ∧ list k = none ∧ ∀ j, i ≤ j → j < k → list j ≠ none := by
  induction n generalizing i with
  | zero => cases hit
  | succ n ih =>
    cases slot : list i with
    | none =>
      simp only [firstNull,slot,some.injEq] at hit
      subst hit
      exact ⟨Int.le_refl _,by omega,slot,fun j _ _ => by omega⟩
    | some p =>
      simp only [firstNull,slot] at hit
      obtain ⟨low,high,null,full⟩ := ih hit
      refine ⟨by omega,by omega,null,?_⟩
      intro j from_i below
      by_cases eq : j = i
      · subst eq; rw [slot]; exact some_ne_none p
      · exact full j (by omega) below

lemma firstNull_none (miss : firstNull list n i = none) : ∀ j, i ≤ j → j < i+n → list j ≠ none := by
  induction n generalizing i with
  | zero => intro j low high; omega
  | succ n ih =>
    cases slot : list i with
    | none => simp [firstNull,slot] at miss
    | some p =>
      simp only [firstNull,slot] at miss
      intro j low high
      by_cases eq : j = i
      · subst eq; rw [slot]; exact some_ne_none p
      · exact ih miss j (by omega) (by omega)

def lowestFree (s : Procs) : Int :=
  (firstNull s.activeProcList (s.currentLargestPid-1).toNat 2).getD (s.currentLargestPid+1)

lemma add_eq (s : Procs) (new : ProcId) : addToActiveProcList s new =
    {s with currentLargestPid := max s.currentLargestPid (lowestFree s)}.place new (lowestFree s) := by
  unfold addToActiveProcList lowestFree
  cases hit : firstNull s.activeProcList (s.currentLargestPid-1).toNat 2 with
  | none => simp
  | some k =>
    obtain ⟨low,high,_,_⟩ := firstNull_some hit
    have inside : max s.currentLargestPid k = s.currentLargestPid := by omega
    simp [inside]

section
variable (valid : TableValid s)
include valid

lemma lowestFree_spec : pidMin ≤ lowestFree s ∧ lowestFree s ≤ s.currentLargestPid+1 ∧
      s.activeProcList (lowestFree s) = none ∧ ∀ j, pidMin ≤ j → j < lowestFree s → s.activeProcList j ≠ none := by
  have low := valid.low
  unfold lowestFree pidMin
  cases hit : firstNull s.activeProcList (s.currentLargestPid-1).toNat 2 with
  | none =>
    simp only [Option.getD_none]
    refine ⟨by omega,Int.le_refl _,valid.above _ (by omega),?_⟩
    intro j from_two upto
    exact firstNull_none hit j from_two (by omega)
  | some k =>
    obtain ⟨from_two,upto,null,full⟩ := firstNull_some hit
    exact ⟨from_two,by simp only [Option.getD_some]; omega,null,full⟩

lemma add_valid (fresh : ¬ Listed s new) : TableValid (addToActiveProcList s new) := by
  obtain ⟨from_two,upto,null,_⟩ := lowestFree_spec valid
  have low := valid.low
  rw [add_eq]
  refine ⟨?_,?_,?_,?_⟩
  · simp only [Procs.place]; omega
  · intro i high
    simp only [Procs.place] at high ⊢
    rw [update_of_ne (by omega)]
    exact valid.above i (by omega)
  · intro i small
    simp only [Procs.place]
    rw [update_of_ne (by omega)]
    exact valid.below i small
  intro i p hit
  simp only [Procs.place] at hit ⊢
  by_cases here : i = lowestFree s
  · subst here
    rw [update_self] at hit
    cases hit
    simp
  rw [update_of_ne here] at hit
  have ne : p ≠ new := fun eq => fresh ⟨i,eq ▸ hit⟩
  rw [update_of_ne ne]
  exact valid.self i p hit

lemma destroy_valid (hit : s.activeProcList i = some p) : TableValid (procDestroy s p) := by
  have bounds := valid.bounds hit
  have self := valid.self i p hit
  have low := valid.low
  unfold pidMin at bounds
  refine ⟨?_,?_,?_,?_⟩
  · simp only [procDestroy,self]
    split <;> omega
  · intro j high
    simp only [procDestroy,self] at high ⊢
    by_cases here : j = i
    · simp [here]
    rw [update_of_ne here]
    split at high
    · exact valid.above j (by omega)
    · exact valid.above j high
  · intro j small
    simp only [procDestroy]
    by_cases here : j = (s.proc p).pid
    · simp [here]
    · rw [update_of_ne here]; exact valid.below j small
  intro j q other
  simp only [procDestroy,self] at other ⊢
  by_cases here : j = i
  · simp [here] at other
  rw [update_of_ne here] at other
  exact valid.self j q other

lemma destroy_list (hit : s.activeProcList i = some p) :
    (procDestroy s p).activeProcList = update s.activeProcList i none := by
  simp [procDestroy,valid.self i p hit]

lemma destroy_found (listed : Listed s p) :
    (procDestroy s p).activeProcList i = some q ↔ s.activeProcList i = some q ∧ q ≠ p := by
  have slot := valid.slot listed
  simp only [procDestroy]
  by_cases here : i = (s.proc p).pid
  · subst here
    simp [slot,eq_comm]
  rw [update_of_ne here]
  refine ⟨fun hit => ⟨hit,?_⟩,fun hit => hit.1⟩
  intro eq
  exact here ((valid.self i q hit).symm.trans (congrArg (fun r => (s.proc r).pid) eq))

lemma destroy_members (hit : s.activeProcList i = some p) : members (procDestroy s p) = members s \ {p} := by
  ext q
  simp only [members,Set.mem_sdiff,Set.mem_ofPred_eq,Set.mem_singleton_iff,Listed,
    destroy_found valid ⟨i,hit⟩,exists_and_right]

lemma add_members : members (addToActiveProcList s new) = insert new (members s) := by
  obtain ⟨_,_,null,_⟩ := lowestFree_spec valid
  rw [add_eq]
  ext q
  simp only [members,Set.mem_insert_iff,Set.mem_ofPred_eq,Listed,Procs.place]
  constructor
  · rintro ⟨j,ne⟩
    by_cases here : j = lowestFree s
    · simp only [here,update_self,some.injEq] at ne
      exact .inl ne.symm
    rw [update_of_ne here] at ne
    exact .inr ⟨j,ne⟩
  rintro (rfl | ⟨j,ne⟩)
  · exact ⟨lowestFree s,by simp⟩
  refine ⟨j,?_⟩
  have apart : j ≠ lowestFree s := by
    rintro rfl
    rw [null] at ne
    cases ne
  rw [update_of_ne apart]
  exact ne

end

lemma cleanupSlot_cases (pid : Int) (s : Procs) (i : Int) :
    cleanupSlot pid s i = s ∨ ∃ p, s.activeProcList i = some p ∧ exitedChild pid (s.proc p) ∧
      cleanupSlot pid s i = procDestroy s p := by
  unfold cleanupSlot
  cases hit : s.activeProcList i with
  | none => exact .inl rfl
  | some p =>
    by_cases exited : exitedChild pid (s.proc p) = true
    · exact .inr ⟨p,rfl,exited,by simp [exited]⟩
    · exact .inl (by simp [exited])

lemma cleanupSlot_proc : (cleanupSlot pid s i).proc = s.proc := by
  rcases cleanupSlot_cases pid s i with eq | ⟨p,_,_,destroyed⟩
  · rw [eq]
  · rw [destroyed]; rfl

lemma cleanupSlot_bound : (cleanupSlot pid s i).currentLargestPid ≤ s.currentLargestPid := by
  rcases cleanupSlot_cases pid s i with eq | ⟨p,_,_,destroyed⟩
  · rw [eq]
  rw [destroyed]
  simp only [procDestroy]
  split <;> omega

lemma cleanupSlot_list (valid : TableValid s) : (cleanupSlot pid s i).activeProcList =
    update s.activeProcList i ((s.activeProcList i).filter fun p => !exitedChild pid (s.proc p)) := by
  unfold cleanupSlot
  cases hit : s.activeProcList i with
  | none => simp [Option.filter,←hit]
  | some p =>
    by_cases exited : exitedChild pid (s.proc p) = true
    · simp [exited,Option.filter,destroy_list valid hit]
    · simp [exited,Option.filter,←hit]

lemma cleanup_rule (Keeps : Procs → Prop) (valid : TableValid s) (base : Keeps s)
    (destroyed : ∀ {t p i}, TableValid t → t.proc = s.proc → t.activeProcList i = some p →
      exitedChild pid (s.proc p) → Keeps t → Keeps (procDestroy t p)) : Keeps (exitedChildrenCleanup s pid) := by
  have loop : ∀ n i t, TableValid t → t.proc = s.proc → Keeps t → Keeps (cleanupFrom pid n i t) := by
    intro n
    induction n with
    | zero => intro i t _ _ keeps; exact keeps
    | succ n ih =>
      intro i t valid eq keeps
      simp only [cleanupFrom]
      split
      · rcases cleanupSlot_cases pid t i with unchanged | ⟨p,hit,exited,changed⟩
        · rw [unchanged]; exact ih _ _ valid eq keeps
        rw [changed]
        apply ih _ _ (destroy_valid valid hit) eq
        exact destroyed valid eq hit (eq ▸ exited) keeps
      · exact keeps
  exact loop _ _ _ valid rfl base

lemma cleanup_valid (valid : TableValid s) : TableValid (exitedChildrenCleanup s pid) :=
  cleanup_rule TableValid valid valid fun valid _ hit _ _ => destroy_valid valid hit

lemma cleanup_proc (valid : TableValid s) : (exitedChildrenCleanup s pid).proc = s.proc :=
  cleanup_rule (fun t => t.proc = s.proc) valid rfl fun _ _ _ _ eq => eq

lemma cleanupFrom_list {n : Nat} (valid : TableValid s) (big : s.currentLargestPid+1-i ≤ n) (j : Int) :
    (cleanupFrom pid n i s).activeProcList j = if i ≤ j then
      (s.activeProcList j).filter fun p => !exitedChild pid (s.proc p) else s.activeProcList j := by
  induction n generalizing i s with
  | zero =>
    simp only [cleanupFrom]
    split
    · rw [valid.above j (by omega)]; rfl
    · rfl
  | succ n ih =>
    simp only [cleanupFrom]
    by_cases inside : i ≤ s.currentLargestPid
    · simp only [inside,↓reduceIte]
      have validSlot : TableValid (cleanupSlot pid s i) := by
        rcases cleanupSlot_cases pid s i with eq | ⟨p,hit,_,destroyed⟩
        · rwa [eq]
        · rw [destroyed]; exact destroy_valid valid hit
      have bound : (cleanupSlot pid s i).currentLargestPid ≤ s.currentLargestPid := cleanupSlot_bound
      rw [ih validSlot (by omega),cleanupSlot_list valid,cleanupSlot_proc]
      by_cases here : j = i
      · subst here; simp
      rw [update_of_ne here]
      by_cases later : i ≤ j
      · simp [later,show i+1 ≤ j by omega]
      · simp [later,show ¬ i+1 ≤ j by omega]
    simp only [inside,↓reduceIte]
    split
    · rw [valid.above j (by omega)]; rfl
    · rfl

section
variable (valid : TableValid s)
include valid

lemma cleanup_list (j : Int) : (exitedChildrenCleanup s pid).activeProcList j =
      (s.activeProcList j).filter fun p => !exitedChild pid (s.proc p) := by
  have low := valid.low
  unfold exitedChildrenCleanup
  rw [cleanupFrom_list valid (by omega)]
  split
  · rfl
  · rw [valid.below j (by unfold pidMin; omega)]; rfl

lemma cleanup_found : (exitedChildrenCleanup s pid).activeProcList j = some p ↔
      s.activeProcList j = some p ∧ exitedChild pid (s.proc p) = false := by
  rw [cleanup_list valid]
  simp [Option.filter_eq_some_iff]

lemma listed_destroy (listed : Listed s p) : Listed (procDestroy s p) q ↔ Listed s q ∧ q ≠ p := by
  obtain ⟨i,hit⟩ := listed
  change q ∈ members _ ↔ _
  rw [destroy_members valid hit]
  rfl

lemma listed_add : Listed (addToActiveProcList s new) q ↔ q = new ∨ Listed s q := by
  change q ∈ members _ ↔ _
  rw [add_members valid]
  rfl

lemma listed_cleanup : Listed (exitedChildrenCleanup s pid) q ↔ Listed s q ∧ exitedChild pid (s.proc q) = false := by
  constructor
  · intro listed
    obtain ⟨i,hit⟩ := listed
    obtain ⟨pre,kept⟩ := (cleanup_found valid).mp hit
    exact ⟨⟨i,pre⟩,kept⟩
  intro listed
  obtain ⟨⟨i,hit⟩,kept⟩ := listed
  exact ⟨i,(cleanup_found valid).mpr ⟨hit,kept⟩⟩

lemma cleanup_keeps (listed : Listed s p) (living : (s.proc p).exit = false)
    (pid : Int) : Listed (exitedChildrenCleanup s pid) p :=
  (listed_cleanup valid).mpr ⟨listed,by simp [exitedChild,living]⟩

lemma TableValid.same (one : Listed s p) (two : Listed s q) (pids : (s.proc p).pid = (s.proc q).pid) : p = q := by
  have slot := valid.slot one
  rw [pids,valid.slot two] at slot
  exact (some.inj slot).symm

lemma TableValid.pid_bounds (listed : Listed s p) : pidMin ≤ (s.proc p).pid ∧ (s.proc p).pid ≤ s.currentLargestPid :=
  valid.bounds (valid.slot listed)

lemma full_members (full : ∀ j, pidMin ≤ j → j ≤ s.currentLargestPid → s.activeProcList j ≠ none) :
    ((s.currentLargestPid-1).toNat : ℕ∞) ≤ (members s).encard := by
  let holder := fun j => (s.activeProcList j).getD 0
  have held : ∀ j ∈ (Finset.Icc pidMin s.currentLargestPid : Set Int), s.activeProcList j = some (holder j) := by
    intro j inside
    have range := Finset.mem_Icc.mp (Finset.mem_coe.mp inside)
    obtain ⟨p,hit⟩ := ne_none_iff_exists'.mp (full j range.1 range.2)
    simp [holder,hit]
  have maps : Set.MapsTo holder (Finset.Icc pidMin s.currentLargestPid : Set Int) (members s) :=
    fun j inside => ⟨j,held j inside⟩
  have injective : Set.InjOn holder (Finset.Icc pidMin s.currentLargestPid : Set Int) := by
    intro i one j two same
    have first := held i one
    rw [same] at first
    exact valid.unique first (held j two)
  have counted := Set.encard_le_encard_of_injOn maps injective
  rw [Set.encard_coe_eq_coe_finsetCard,Int.card_Icc] at counted
  have size : s.currentLargestPid+1-pidMin = s.currentLargestPid-1 := by unfold pidMin; omega
  rwa [size] at counted

lemma lowestFree_le (bound : s.currentLargestPid ≤ pidMax)
    (room : (members s).encard < procLimit) : lowestFree s ≤ pidMax := by
  obtain ⟨_,upto,_,full⟩ := lowestFree_spec valid
  by_contra beyond
  unfold pidMax at bound beyond
  have every := full_members valid fun j low high => full j low (by omega)
  have top : (s.currentLargestPid-1).toNat = procLimit := by unfold procLimit; omega
  rw [top] at every
  exact absurd room (not_lt.mpr every)

end

lemma add_pid : ((addToActiveProcList s new).proc new).pid = lowestFree s := by
  rw [add_eq]; simp [Procs.place]

lemma add_proc : (addToActiveProcList s new).proc = update s.proc new {s.proc new with pid := lowestFree s} := by
  rw [add_eq]; rfl

lemma add_found (valid : TableValid s) : (addToActiveProcList s new).activeProcList i = some q ↔
      (i = lowestFree s ∧ q = new) ∨ s.activeProcList i = some q := by
  obtain ⟨_,_,null,_⟩ := lowestFree_spec valid
  rw [add_eq]
  simp only [Procs.place]
  by_cases here : i = lowestFree s
  · subst here
    simp [null,eq_comm]
  · simp [here]

lemma set_valid (valid : TableValid s) (eq : value.pid = (s.proc p).pid) : TableValid (s.set p value) := by
  refine ⟨valid.low,valid.above,valid.below,?_⟩
  intro i q found
  by_cases here : q = p
  · subst here
    simpa [Procs.set,eq] using valid.self i q found
  · simpa [Procs.set,here] using valid.self i q found

lemma add_largest : (addToActiveProcList s new).currentLargestPid = max s.currentLargestPid (lowestFree s) := by
  rw [add_eq]; rfl

lemma destroy_largest : (procDestroy s p).currentLargestPid ≤ s.currentLargestPid := by
  simp only [procDestroy]
  split <;> omega

lemma cleanup_largest (valid : TableValid s) : (exitedChildrenCleanup s pid).currentLargestPid ≤ s.currentLargestPid :=
  cleanup_rule (fun t => t.currentLargestPid ≤ s.currentLargestPid) valid (le_refl _)
    fun _ _ _ _ lt => le_trans destroy_largest lt

-- Histories of the table alone. Callers count a process before they add it, so proc_destroy finds it counted.
inductive TableEvent where
  | add (new : ProcId)
  | destroy (p : ProcId)

def tableStep (s : Procs) : TableEvent → Option Procs
  | .add new => some (addToActiveProcList {s with procCount := s.procCount+1} new)
  | .destroy p => some (procDestroy s p)

def TableAllowed (s : Procs) : TableEvent → Prop
  | .add new => ¬ Listed s new ∧ (members s).encard < procLimit
  | .destroy p => Listed s p

def TableReached (s : Procs) : Prop := Transition.Reached tableStep TableAllowed procBootstrap s
def TableInvariant (s : Procs) : Prop := TableValid s ∧ s.currentLargestPid ≤ pidMax

lemma count_valid (valid : TableValid s) : TableValid {s with procCount := n} :=
  ⟨valid.low,valid.above,valid.below,valid.self⟩

lemma tableStep_invariant (valid : TableInvariant s) (may : TableAllowed s event)
    (did : tableStep s event = some after) : TableInvariant after := by
  cases event with
  | add new =>
    cases did
    have counted := count_valid (n := s.procCount+1) valid.1
    refine ⟨add_valid counted may.1,?_⟩
    rw [add_largest]
    exact max_le valid.2 (lowestFree_le counted valid.2 may.2)
  | destroy p =>
    cases did
    obtain ⟨i,hit⟩ := may
    exact ⟨destroy_valid valid.1 hit,le_trans destroy_largest valid.2⟩

lemma tableReached_invariant (path : TableReached s) : TableInvariant s :=
  Transition.Reached.invariant TableInvariant path ⟨procBootstrap_valid,by decide⟩
    fun _ valid may did => tableStep_invariant valid may did

-- What a history of adds and destroys leaves: bounds, emptiness above the largest pid, slots that agree with pid
-- fields, no process twice, and first fit for the next pid.
structure PidTable (s : Procs) : Prop where
  bounds : 1 ≤ s.currentLargestPid ∧ s.currentLargestPid ≤ pidMax
  above : ∀ i, s.currentLargestPid < i → s.activeProcList i = none
  self : ∀ i p, s.activeProcList i = some p → (s.proc p).pid = i
  once : ∀ i j p, s.activeProcList i = some p → s.activeProcList j = some p → i = j
  add : ∀ new after, TableAllowed s (.add new) → tableStep s (.add new) = some after →
    after.activeProcList (after.proc new).pid = some new ∧
    pidMin ≤ (after.proc new).pid ∧ (after.proc new).pid ≤ pidMax ∧
    (∀ p, Listed s p → (s.proc p).pid ≠ (after.proc new).pid) ∧
    ∀ i, pidMin ≤ i → i < (after.proc new).pid → ∃ p, Listed s p ∧ (s.proc p).pid = i

theorem pid_table_invariant (path : TableReached s) : PidTable s := by
  obtain ⟨valid,bound⟩ := tableReached_invariant path
  refine ⟨⟨valid.low,bound⟩,valid.above,valid.self,fun i j p => valid.unique,?_⟩
  intro new after allowed taken
  cases taken
  have counted := count_valid (n := s.procCount+1) valid
  obtain ⟨from_two,_,null,full⟩ := lowestFree_spec counted
  have inside := lowestFree_le counted bound allowed.2
  refine ⟨(add_valid counted allowed.1).slot ?_,?_⟩
  · change new ∈ members _
    rw [add_members counted]
    exact Set.mem_insert _ _
  rw [add_pid]
  refine ⟨from_two,inside,?_,?_⟩
  · intro p listed equal
    have slot := valid.slot listed
    rw [equal] at slot
    exact absurd (slot.symm.trans null) (some_ne_none p)
  intro i low high
  obtain ⟨p,found⟩ := ne_none_iff_exists'.mp (full i low high)
  exact ⟨p,⟨i,found⟩,valid.self i p found⟩

lemma procBootstrap_members : members procBootstrap = ∅ := by
  ext p
  simp [members,Listed,procBootstrap]

def holed : Procs := procDestroy (addToActiveProcList {addToActiveProcList {procBootstrap with
  procCount := 1} 0 with procCount := 2} 1) 0

theorem holed_pid_table : TableReached holed ∧ PidTable holed := by
  have empty := procBootstrap_members
  have first : TableAllowed procBootstrap (.add 0) := by
    refine ⟨?_,?_⟩
    · intro listed
      have : 0 ∈ members procBootstrap := listed
      simp [empty] at this
    rw [empty,Set.encard_empty]
    exact_mod_cast (by decide : 0 < procLimit)
  have firstSet : members (addToActiveProcList {procBootstrap with procCount := 1} 0) = {0} := by
    rw [add_members (count_valid procBootstrap_valid),show members {procBootstrap with procCount := 1} = ∅ from empty]
    simp
  have second : TableAllowed (addToActiveProcList {procBootstrap with procCount := 1} 0) (.add 1) := by
    refine ⟨?_,?_⟩
    · intro listed
      have : 1 ∈ members (addToActiveProcList {procBootstrap with procCount := 1} 0) := listed
      simp [firstSet] at this
    · rw [firstSet]; simp [procLimit]
  have third : TableAllowed (addToActiveProcList {addToActiveProcList {procBootstrap with
      procCount := 1} 0 with procCount := 2} 1) (.destroy 0) := ⟨2,by decide⟩
  have path : TableReached holed := .next (.next (.next .initial first rfl) second rfl) third rfl
  exact ⟨path,pid_table_invariant path⟩
end ToyOS.ProcTable
