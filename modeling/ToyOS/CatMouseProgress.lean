import ToyOS.CatMouse

namespace ToyOS.CatMouse
open Function Transition Option

variable {Creature : Type} {numBowls : Nat}

@[simp] def wantsSet : Pc numBowls → Bool
  | .turnLock _ | .checkLock _ | .recheckLock _ | .afterLock _ => true
  | _ => false

@[simp] def wantsBowl (bowl : Fin numBowls) : Pc numBowls → Bool
  | .bowlLock here | .cvRelock here => here = bowl
  | _ => false

-- Asleep with no wakeup delivered, or behind a lock that one of `among` holds.
inductive Waits (s : System Creature numBowls) (among : Creature → Prop) (p : Creature) : Prop where
  | asleep : s.pc p = .asleep bowl → Waits s among p
  | set : wantsSet (s.pc p) = true → s.setCatmouseEat = some q → among q → Waits s among p
  | bowl : wantsBowl bowl (s.pc p) = true → s.lkForBowls bowl = some q → among q → Waits s among p

-- A cycle of waits for locks is blocked too.
def Blocked (s : System Creature numBowls) (p : Creature) : Prop :=
  ∃ among : Creature → Prop, among p ∧ ∀ q, among q → Waits s among q

def Finished (s : System Creature numBowls) (p : Creature) : Prop := s.pc p = .home ∧ s.loops p = 0

def Stuck (s : System Creature numBowls) : Prop :=
  (∃ p, ¬Finished s p) ∧ ∀ p, ¬Finished s p → Blocked s p

def Heard (kind : Creature → Kind) (s : System Creature numBowls) : Event Creature numBowls → Prop
  | .run p => ∀ bowl, s.pc p = .after bowl → s.eating (kind p) = 1 →
      ∀ q here, kind q = (kind p).other → s.pc q ≠ .cvWait here
  | .choose .. => True

@[simp] def dozes : Pc numBowls → Bool
  | .cvWait _ | .asleep _ => true
  | _ => false

@[simp] def underway : Pc numBowls → Bool
  | .bowlLock _ | .checkLock _ | .check _ | .cvWait _ | .asleep _ | .cvRelock _ | .recheckLock _ | .recheck _
  | .eat _ | .eating _ | .afterLock _ | .after _ => true
  | _ => false

-- A creature dozes only while the others have the turn or eat, and a kind has the turn only while one of its creatures
-- is underway.
structure Live (kind : Creature → Kind) (s : System Creature numBowls) : Prop where
  dozing : ∀ q, dozes (s.pc q) = true → s.turn = (kind q).other.turn ∨ 0 < s.eating (kind q).other
  turn : ∀ k : Kind, s.turn = k.turn → ∃ q, kind q = k ∧ underway (s.pc q) = true

variable [DecidableEq Creature] {kind : Creature → Kind} {s t : System Creature numBowls} {p q : Creature}
  {now : Pc numBowls} {bowl : Fin numBowls}

@[simp] lemma Kind.turn_ne (k : Kind) : k.turn ≠ -1 := by
  cases k <;> simp [Kind.turn]

lemma Kind.turn_inj {k l : Kind} (eq : k.turn = l.turn) : k = l := by
  cases k <;> cases l <;> simp_all [Kind.turn]

section
omit [DecidableEq Creature]

lemma set_holder_runs (locks : Locks s) (held : s.setCatmouseEat = some p) : ¬Waits s among p := by
  have has := (locks.set p).mp held
  rintro (at_ | ⟨wants,_,_⟩ | ⟨wants,_,_⟩)
  · simp [at_] at has
  all_goals cases at_ : s.pc p <;> simp_all

lemma blocked_asleep (locks : Locks s) (blocked : Blocked s p) : ∃ bowl, s.pc p = .asleep bowl := by
  obtain ⟨among,member,waits⟩ := blocked
  cases waits p member with
  | asleep at_ => exact ⟨_,at_⟩
  | set _ held other => exact absurd (waits _ other) (set_holder_runs locks held)
  | @bowl bowl q _ held other =>
    have has := (locks.bowl bowl q).mp held
    -- the holder of a bowl may be behind the shared lock, whose holder runs
    cases waits q other with
    | asleep at_ => simp [at_] at has
    | set _ held last => exact absurd (waits _ last) (set_holder_runs locks held)
    | bowl wants _ _ => cases at_ : s.pc q <;> simp_all

end

section Progress
variable [Fintype Creature]

omit [DecidableEq Creature] in
lemma not_stuck (sound : Sound kind s) (live : Live kind s) : ¬Stuck s := by
  intro stuck
  obtain ⟨⟨p,unfinished⟩,blocked⟩ := stuck
  have places : ∀ q, s.pc q = .home ∨ ∃ bowl, s.pc q = .asleep bowl := by
    intro q
    by_cases finished : Finished s q
    · exact .inl finished.1
    · exact .inr (blocked_asleep sound.locks (blocked q finished))
  have uneaten : ∀ k, s.eating k = 0 := by
    intro k
    apply sound.counts.eating.zero.mpr
    intro q _
    rcases places q with at_ | ⟨bowl,at_⟩ <;> simp [at_]
  have rest : ∀ q, dozes (s.pc q) → s.turn = (kind q).other.turn := by
    intro q dozing
    rcases live.dozing q dozing with turn | eating
    · exact turn
    · simp [uneaten] at eating
  obtain ⟨bowl,at_⟩ := blocked_asleep sound.locks (blocked p unfinished)
  have turn := rest p (by simp [at_])
  -- The kind with the turn has somebody underway, who dozes too.
  obtain ⟨q,ne,under⟩ := live.turn _ turn
  have dozing : dozes (s.pc q) := by
    rcases places q with home | ⟨bowl,here⟩
    · simp [home] at under
    · simp [here]
  have back := rest q dozing
  rw [turn,ne,Kind.other_other] at back
  exact Kind.other_ne _ (Kind.turn_inj back)

end Progress

section
variable (live : Live kind s)
include live

section
variable (doze : dozes now → dozes (s.pc p))
include doze

section
variable (under : underway (s.pc p) → underway now)
include under

lemma Live.keep (turn : t.turn = s.turn)
    (eating : ∀ k, s.eating k ≤ t.eating k) (moved : t.pc = update s.pc p now) : Live kind t := by
  constructor
  · intro q dozing
    rw [moved] at dozing
    have pre : dozes (s.pc q) := by
      by_cases self : q = p
      · rw [self,update_self] at dozing
        rw [self]
        exact doze dozing
      · rwa [update_of_ne self] at dozing
    rw [turn]
    rcases live.dozing q pre with eq | eats
    · exact .inl eq
    · exact .inr (lt_of_lt_of_le eats (eating _))
  intro k eq
  rw [turn] at eq
  obtain ⟨q,mine,flying⟩ := live.turn k eq
  refine ⟨q,mine,?_⟩
  rw [moved]
  by_cases self : q = p
  · rw [self,update_self]
    rw [self] at flying
    exact under flying
  · rwa [update_of_ne self]

lemma Live.lockSet (did : lockSet s p now = some t) : Live kind t := by
  obtain ⟨_,eq⟩ := ite_none_right_eq_some.mp did
  cases eq
  exact live.keep doze under rfl (fun _ => le_rfl) rfl

lemma Live.unlockSet (did : unlockSet s p now = some t) : Live kind t := by
  obtain ⟨_,eq⟩ := ite_none_right_eq_some.mp did
  cases eq
  exact live.keep doze under rfl (fun _ => le_rfl) rfl

lemma Live.lockBowl (did : lockBowl s p bowl now = some t) : Live kind t := by
  obtain ⟨_,eq⟩ := ite_none_right_eq_some.mp did
  cases eq
  exact live.keep doze under rfl (fun _ => le_rfl) rfl

lemma Live.unlockBowl (did : unlockBowl s p bowl now = some t) : Live kind t := by
  obtain ⟨_,eq⟩ := ite_none_right_eq_some.mp did
  cases eq
  exact live.keep doze under rfl (fun _ => le_rfl) rfl

end

end

lemma Live.takeTurn (at_ : s.pc p = .takeTurn bowl)
    (did : CatMouse.unlockSet (CatMouse.takeTurn (kind p) s) p (.bowlLock bowl) = some t) : Live kind t := by
  obtain ⟨_,eq⟩ := ite_none_right_eq_some.mp did
  cases eq
  by_cases free : s.turn = -1
  · simp only [CatMouse.takeTurn,if_pos free]
    constructor
    · intro q dozing
      have ne : q ≠ p := by
        intro self
        simp [self] at dozing
      simp only [update_of_ne ne] at dozing
      rcases live.dozing q dozing with turn | eats
      · exact absurd (turn.symm.trans free) (Kind.turn_ne _)
      · exact .inr eats
    intro k turn
    exact ⟨p,Kind.turn_inj turn,by simp⟩
  simp only [CatMouse.takeTurn,if_neg free]
  exact live.keep (p := p) (by simp) (by simp [at_]) rfl (fun _ => le_rfl) rfl

lemma Live.beforeEating (did : beforeEating (kind p) s p bowl = some t) : Live kind t := by
  unfold CatMouse.beforeEating at did
  split at did
  · rename_i wait
    obtain ⟨_,eq⟩ := ite_none_right_eq_some.mp did
    cases eq
    constructor
    · intro q dozing
      by_cases self : q = p
      · rw [self]
        exact wait
      simp only [update_of_ne self] at dozing
      exact live.dozing q dozing
    intro k turn
    obtain ⟨q,mine,flying⟩ := live.turn k turn
    refine ⟨q,mine,?_⟩
    by_cases self : q = p
    · simp [self]
    · simpa [self] using flying
  obtain ⟨_,eq⟩ := ite_none_right_eq_some.mp did
  cases eq
  refine live.keep (p := p) (by simp) (by simp) rfl ?_ rfl
  intro k
  by_cases mine : k = kind p
  · simp [mine]
  · simp [mine]

end

section
omit [DecidableEq Creature]

lemma dozes_wakeAll {pc : Creature → Pc numBowls} (dozing : dozes (wakeAll kind k pc q)) :
    dozes (pc q) ∧ (kind q = k → ∃ here, pc q = .cvWait here) := by
  unfold wakeAll at dozing
  split at dozing
  next here at_ =>
      split at dozing
      · simp at dozing
      rename_i ne
      exact ⟨by simp [at_],fun eq => absurd eq ne⟩
  next awake =>
      refine ⟨dozing,fun _ => ?_⟩
      cases at_ : pc q <;> simp_all

lemma sleeper_of_dozes (dozing : dozes pc) : sleeper pc := by
  cases pc <;> simp_all

lemma underway_of_sleeper (sleeps : sleeper pc) : underway pc := by
  cases pc <;> simp_all

lemma underway_of_admitted (at_ : admitted pc) : underway pc := by
  cases pc <;> simp_all

lemma underway_wakeAll (k : Kind) (pc : Creature → Pc numBowls) (q : Creature) :
    underway (wakeAll kind k pc q) = underway (pc q) :=
  wakeAll_class kind k pc (fun _ => rfl) q

end

section Leaving
variable [Fintype Creature]

def left (kind : Creature → Kind) (s : System Creature numBowls) (p : Creature) (bowl : Fin numBowls) :
    System Creature numBowls :=
  {s with
    eating := update s.eating (kind p) (s.eating (kind p)-1)
    pc := update s.pc p (.setUnlock bowl)}

lemma Live.handOver (sound : Sound kind (left kind s p bowl)) (waiting : s.sleeping (kind p).other > 0)
    (heard : ∀ q here, kind q = (kind p).other → s.pc q ≠ .cvWait here) : Live kind {left kind s p bowl with
      turn := (kind p).other.turn
      pc := wakeAll kind (kind p).other (left kind s p bowl).pc} := by
  constructor
  · intro q dozing
    obtain ⟨dozed,missed⟩ := dozes_wakeAll dozing
    left
    have mine : kind q ≠ (kind p).other := by
      intro ne
      obtain ⟨here,at_⟩ := missed ne
      by_cases self : q = p
      · simp [left,self] at at_
      · exact heard q here ne (by simpa [left,self] using at_)
    rw [Kind.eq_other mine,Kind.other_other]
  intro k turn
  obtain ⟨q,ne,sleeps⟩ := sound.counts.sleeping.pos.mp waiting
  refine ⟨q,ne.trans (Kind.turn_inj turn),?_⟩
  simp only [underway_wakeAll]
  exact underway_of_sleeper sleeps

lemma Live.free (sound : Sound kind (left kind s p bowl)) (rest : s.sleeping (kind p).other = 0)
    (own : s.sleeping (kind p) = 0) : Live kind {left kind s p bowl with turn := -1} := by
  constructor
  · intro q dozing
    have none_ : ∀ k, s.sleeping k = 0 := by
      intro k
      by_cases mine : k = kind p
      · rw [mine]
        exact own
      rw [Kind.eq_other mine]
      exact rest
    have awake := sound.counts.sleeping.zero.mp (none_ (kind q)) q rfl
    rw [sleeper_of_dozes dozing] at awake
    cases awake
  intro k turn
  exact absurd turn.symm (Kind.turn_ne k)

lemma Live.stay (live : Live kind s) (sound : Sound kind s) (at_ : s.pc p = .after bowl)
    (after : Sound kind (left kind s p bowl))
    (more : 0 < s.eating (kind p)-1 ∨ s.sleeping (kind p).other = 0 ∧ 0 < s.sleeping (kind p)) :
    Live kind {left kind s p bowl with pc := wakeAll kind (kind p) (left kind s p bowl).pc} := by
  have mine : 0 < s.eating (kind p) := sound.counts.eating.pos.mpr ⟨p,rfl,by simp [at_]⟩
  have alone := sound.counts.apart _ mine
  constructor
  · intro q dozing
    obtain ⟨dozed,_⟩ := dozes_wakeAll dozing
    have apart : q ≠ p := by
      intro self
      simp [left,self] at dozed
    have pre : dozes (s.pc q) := by simpa [left,apart] using dozed
    rcases live.dozing q pre with turn | eats
    · exact .inl turn
    by_cases eq : kind q = kind p
    · rw [eq,alone] at eats
      cases eats
    have ne : (kind q).other = kind p := by rw [Kind.eq_other eq,Kind.other_other]
    rcases more with again | ⟨nobody,_⟩
    · right
      simpa [left,ne] using again
    have awake := after.counts.sleeping.zero.mp nobody q (Kind.eq_other eq)
    rw [sleeper_of_dozes dozed] at awake
    cases awake
  intro k turn
  obtain ⟨q,own,under⟩ := live.turn k turn
  simp only [underway_wakeAll]
  by_cases self : q = p
  · rw [self] at own
    subst own
    rcases more with again | ⟨_,sleeps⟩
    · obtain ⟨r,eq,eats⟩ := (after.counts.eating.pos (k := kind p)).mp (by simpa [left] using again)
      exact ⟨r,eq,underway_of_admitted eats⟩
    obtain ⟨r,eq,sleeps⟩ := after.counts.sleeping.pos.mp sleeps
    exact ⟨r,eq,underway_of_sleeper sleeps⟩
  · exact ⟨q,own,by simpa [left,self] using under⟩

lemma Live.afterEating (live : Live kind s) (sound : Sound kind s) (at_ : s.pc p = .after bowl)
    (heard : Heard kind s (.run p)) (did : afterEating kind (kind p) s p bowl = some t) : Live kind t := by
  have after : Sound kind (left kind s p bowl) := sound.leaves at_
  rw [afterEating_eq] at did
  change passTurn kind (kind p) (left kind s p bowl) p bowl = some t at did
  unfold passTurn cvBroadcast at did
  have gone : (left kind s p bowl).eating (kind p) = s.eating (kind p)-1 := update_self ..
  rw [gone] at did
  split at did
  · rename_i hands
    obtain ⟨_,eq⟩ := ite_none_right_eq_some.mp did
    cases eq
    exact Live.handOver after hands.2 (heard bowl at_ (by omega))
  rename_i keeps
  split at did
  · rename_i frees
    cases did
    exact Live.free after frees.2.1 frees.2.2
  rename_i stays
  obtain ⟨_,eq⟩ := ite_none_right_eq_some.mp did
  cases eq
  apply live.stay sound at_ after
  have eating := after.counts.eating.nonneg (kind p)
  rw [gone] at eating
  have rest := sound.counts.sleeping.nonneg (kind p).other
  have own := sound.counts.sleeping.nonneg (kind p)
  change ¬(s.eating (kind p)-1 = 0 ∧ s.sleeping (kind p).other > 0) at keeps
  change ¬(s.eating (kind p)-1 = 0 ∧ s.sleeping (kind p).other = 0 ∧ s.sleeping (kind p) = 0) at stays
  omega

section
omit [Fintype Creature]

lemma Live.eat (live : Live kind s) (did : eat (kind p) s p bowl = some t) : Live kind t := by
  unfold CatMouse.eat at did
  split at did
  · cases did
  split at did
  · cases did
  obtain ⟨_,eq⟩ := ite_none_right_eq_some.mp did
  cases eq
  exact live.keep (p := p) (by simp) (by simp) rfl (fun _ => le_rfl) rfl

lemma Live.eaten (live : Live kind s) (did : eaten (kind p) s p bowl = some t) : Live kind t := by
  obtain ⟨_,eq⟩ := ite_none_right_eq_some.mp did
  cases eq
  exact live.keep (p := p) (by simp) (by simp) rfl (fun _ => le_rfl) rfl

end

lemma Live.next (live : Live kind s) (sound : Sound kind s) (heard : Heard kind s (.run p))
    (did : next kind s p = some t) : Live kind t := by
  unfold CatMouse.next at did
  simp only [ofKind_beforeEating,ofKind_eat,ofKind_eaten,ofKind_afterEating] at did
  split at did
  next => cases did
  next at_ => exact live.lockSet (by simp) (by simp [at_]) did
  next at_ => exact live.takeTurn at_ did
  next at_ => exact live.lockBowl (by simp) (by simp) did
  next at_ => exact live.lockSet (by simp) (by simp) did
  next at_ => exact live.beforeEating did
  next at_ => exact live.unlockBowl (by simp [at_]) (by simp) did
  next => cases did
  next at_ => exact live.lockBowl (by simp) (by simp) did
  next at_ => exact live.lockSet (by simp) (by simp) did
  next bowl at_ =>
      rw [beforeEating_woken] at did
      have again : Live kind {woken (kind p) s with pc := update s.pc p (.check bowl)} :=
        live.keep (p := p) (by simp) (by simp) rfl (fun _ => le_rfl) rfl
      exact again.beforeEating did
  next at_ => exact live.eat did
  next at_ => exact live.eaten did
  next at_ => exact live.lockSet (by simp) (by simp) did
  next at_ => exact live.afterEating sound at_ heard did
  next at_ => exact live.unlockSet (by simp) (by simp [at_]) did
  next bowl at_ =>
      obtain ⟨_,eq⟩ := ite_none_right_eq_some.mp did
      cases eq
      exact live.keep (p := p) (by simp) (by simp [at_]) rfl (fun _ => le_rfl) rfl

lemma Live.step (live : Live kind s) (sound : Sound kind s) (heard : Heard kind s event)
    (did : step kind s event = some t) : Live kind t := by
  cases event with
  | run p => exact live.next sound heard did
  | choose p bowl =>
    obtain ⟨⟨at_,_⟩,eq⟩ := ite_none_right_eq_some.mp did
    cases eq
    exact live.keep (p := p) (by simp) (by simp [at_]) rfl (fun _ => le_rfl) rfl

omit [DecidableEq Creature] [Fintype Creature] in
lemma initial_live (kind : Creature → Kind) (loops : Nat) : Live kind (initial loops : System Creature numBowls) := by
  constructor
  · intro q dozing
    simp [initial] at dozing
  intro k turn
  exact absurd turn.symm (Kind.turn_ne k)

theorem cats_and_mice_progress {loops : Nat} (path : Reached (step kind) (Heard kind) (initial loops) s) :
    ¬Stuck s := by
  have live : Live kind s := by
    refine path.invariant (Live kind) (initial_live kind loops) ?_
    intro s event t prior live heard did
    exact live.step (reached_sound prior.free) heard did
  exact not_stuck (reached_sound path.free) live

end Leaving

local instance two : NeZero 2 := ⟨by decide⟩

def catAndMouse (p : Fin 2) : Kind := if p = 0 then .cat else .mouse

def wakened : List (Event (Fin 2) 2) :=
  .choose 1 0 :: List.replicate 6 (.run 1)++.choose 0 1 :: List.replicate 6 (.run 0)++List.replicate 5 (.run 1)

def unheard : List (Event (Fin 2) 2) :=
  .choose 1 0 :: List.replicate 6 (.run 1)++.choose 0 1 :: List.replicate 5 (.run 0)++List.replicate 5 (.run 1) ++
    [.run 0]

instance (s : System (Fin 2) 2) (event : Event (Fin 2) 2) : Decidable (Heard catAndMouse s event) := by
  unfold Heard
  split <;> infer_instance

theorem cats_and_mice_progress_wakened : ∃ s : System (Fin 2) 2,
    Reached (step catAndMouse) (Heard catAndMouse) (initial 1) s ∧ s.pc 0 = .cvRelock 1 ∧ s.pc 1 = .home ∧
      ¬Stuck s := by
  have ran : (run (guarded (fun s event => decide (Heard catAndMouse s event)) (step catAndMouse)) (initial 1)
      wakened).map (fun s => (s.pc 0,s.pc 1)) = some (.cvRelock 1,.home) := by decide +kernel
  obtain ⟨s,guardedRun,shown⟩ := map_eq_some_iff.mp ran
  simp only [Prod.mk.injEq] at shown
  have reached := run_permitted (fun _ permitted => of_decide_eq_true permitted) .initial guardedRun
  exact ⟨s,reached,shown.1,shown.2,cats_and_mice_progress reached⟩

theorem cat_sleeps_for_ever : ∃ s : System (Fin 2) 2,
    run (step catAndMouse) (initial 1) unheard = some s ∧ Stuck s := by
  have ran : (run (step catAndMouse) (initial 1) unheard).map (fun s => (s.pc 0,s.pc 1,s.loops 1)) =
      some (.asleep 1,.home,0) := by decide +kernel
  obtain ⟨s,reached,shown⟩ := map_eq_some_iff.mp ran
  simp only [Prod.mk.injEq] at shown
  obtain ⟨cat,mouse,loops⟩ := shown
  refine ⟨s,reached,⟨0,fun finished => ?_⟩,?_⟩
  · simp [Finished,cat] at finished
  intro p unfinished
  by_cases first : p = 0
  · rw [first]
    exact ⟨fun q => q = 0,rfl,fun q eq => .asleep (eq ▸ cat)⟩
  have second : p = 1 := by omega
  exact absurd ⟨second ▸ mouse,second ▸ loops⟩ unfinished
end ToyOS.CatMouse
