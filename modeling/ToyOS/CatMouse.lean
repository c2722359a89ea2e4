import ToyOS.Library.Transition
import ToyOS.Library.Tokens
import ToyOS.Library.Census

namespace ToyOS.CatMouse
open Function Transition Tokens Census Option

-- catmouse_synch.c and catmouse.c. The functions for cats and mice differ only in the caller's kind.
inductive Kind where
  | cat | mouse
deriving DecidableEq

def Kind.other : Kind → Kind
  | .cat => .mouse
  | .mouse => .cat

def Kind.turn : Kind → Int
  | .cat => 1
  | .mouse => 0

-- What a creature does next at the bowl it has chosen. Bowl number i+1 is written i.
inductive Pc (numBowls : Nat) where
  | home
  | turnLock (bowl : Fin numBowls)
  | takeTurn (bowl : Fin numBowls)
  | bowlLock (bowl : Fin numBowls)
  | checkLock (bowl : Fin numBowls)
  | check (bowl : Fin numBowls)
  | cvWait (bowl : Fin numBowls)
  | asleep (bowl : Fin numBowls)
  | cvRelock (bowl : Fin numBowls)
  | recheckLock (bowl : Fin numBowls)
  | recheck (bowl : Fin numBowls)
  | eat (bowl : Fin numBowls)
  | eating (bowl : Fin numBowls)
  | afterLock (bowl : Fin numBowls)
  | after (bowl : Fin numBowls)
  | setUnlock (bowl : Fin numBowls)
  | bowlUnlock (bowl : Fin numBowls)
deriving DecidableEq

-- eating is catsEating and mouseEating, eatingCount is eating_cats_count and eating_mice_count. On cat_sleep are the
-- cats that are asleep, on mouse_sleep the mice.
structure System (Creature : Type) (numBowls : Nat) where
  turn : Int
  eating : Kind → Int
  sleeping : Kind → Int
  setCatmouseEat : Option Creature
  lkForBowls : Fin numBowls → Option Creature
  bowls : Fin numBowls → Option Kind
  eatingCount : Kind → Int
  loops : Creature → Nat
  pc : Creature → Pc numBowls

variable {Creature : Type} {numBowls : Nat}

def initial (loops : Nat) : System Creature numBowls where
  turn := -1
  eating _ := 0
  sleeping _ := 0
  setCatmouseEat := none
  lkForBowls _ := none
  bowls _ := none
  eatingCount _ := 0
  loops _ := loops
  pc _ := .home

variable [DecidableEq Creature]

def lockSet (s : System Creature numBowls) (p : Creature) (now : Pc numBowls) : Option (System Creature numBowls) :=
  if s.setCatmouseEat = none then some {s with setCatmouseEat := some p,pc := update s.pc p now} else none

def unlockSet (s : System Creature numBowls) (p : Creature) (now : Pc numBowls) : Option (System Creature numBowls) :=
  if s.setCatmouseEat = some p then some {s with setCatmouseEat := none,pc := update s.pc p now} else none

def lockBowl (s : System Creature numBowls) (p : Creature) (bowl : Fin numBowls) (now : Pc numBowls) :
    Option (System Creature numBowls) :=
  if s.lkForBowls bowl = none then
    some {s with lkForBowls := update s.lkForBowls bowl (some p),pc := update s.pc p now} else none

def unlockBowl (s : System Creature numBowls) (p : Creature) (bowl : Fin numBowls) (now : Pc numBowls) :
    Option (System Creature numBowls) :=
  if s.lkForBowls bowl = some p then
    some {s with lkForBowls := update s.lkForBowls bowl none,pc := update s.pc p now} else none

def takeTurn (k : Kind) (s : System Creature numBowls) : System Creature numBowls :=
  {s with turn := if s.turn = -1 then k.turn else s.turn}

def beforeEating (k : Kind) (s : System Creature numBowls) (p : Creature) (bowl : Fin numBowls) :
    Option (System Creature numBowls) :=
  if s.turn = k.other.turn ∨ s.eating k.other > 0 then
    unlockSet {s with sleeping := update s.sleeping k (s.sleeping k+1)} p (.cvWait bowl)
  else unlockSet {s with eating := update s.eating k (s.eating k+1)} p (.eat bowl)

def woken (k : Kind) (s : System Creature numBowls) : System Creature numBowls :=
  {s with sleeping := update s.sleeping k (s.sleeping k-1)}

def eat (k : Kind) (s : System Creature numBowls) (p : Creature) (bowl : Fin numBowls) :
    Option (System Creature numBowls) :=
  if s.bowls bowl = some k then none
  else if s.eatingCount k.other > 0 then none
  else if s.bowls bowl = none ∧ s.eatingCount k.other = 0 then some {s with
    eatingCount := update s.eatingCount k (s.eatingCount k+1)
    bowls := update s.bowls bowl (some k)
    pc := update s.pc p (.eating bowl)}
  else none

def eaten (k : Kind) (s : System Creature numBowls) (p : Creature) (bowl : Fin numBowls) :
    Option (System Creature numBowls) :=
  if s.eatingCount k > 0 ∧ s.bowls bowl = some k then some {s with
    eatingCount := update s.eatingCount k (s.eatingCount k-1)
    bowls := update s.bowls bowl none
    pc := update s.pc p (.afterLock bowl)}
  else none

def wakeAll (kind : Creature → Kind) (k : Kind) (pc : Creature → Pc numBowls) : Creature → Pc numBowls :=
  fun q => match pc q with
    | .asleep bowl => if kind q = k then .cvRelock bowl else .asleep bowl
    | now => now

def cvBroadcast (kind : Creature → Kind) (k : Kind) (s : System Creature numBowls) (p : Creature)
    (bowl : Fin numBowls) : Option (System Creature numBowls) :=
  if s.lkForBowls bowl = some p then some {s with pc := wakeAll kind k s.pc} else none

def passTurn (kind : Creature → Kind) (k : Kind) (s : System Creature numBowls) (p : Creature) (bowl : Fin numBowls) :
    Option (System Creature numBowls) :=
  if s.eating k = 0 ∧ s.sleeping k.other > 0 then cvBroadcast kind k.other {s with turn := k.other.turn} p bowl
  else if s.eating k = 0 ∧ s.sleeping k.other = 0 ∧ s.sleeping k = 0 then some {s with turn := -1}
  else cvBroadcast kind k s p bowl

def afterEating (kind : Creature → Kind) (k : Kind) (s : System Creature numBowls) (p : Creature)
    (bowl : Fin numBowls) : Option (System Creature numBowls) :=
  (passTurn kind k {s with eating := update s.eating k (s.eating k-1)} p bowl).map fun t =>
    {t with pc := update t.pc p (.setUnlock bowl)}

def catBeforeEating := @beforeEating Creature numBowls _ .cat
def mouseBeforeEating := @beforeEating Creature numBowls _ .mouse
def catEat := @eat Creature numBowls _ .cat
def mouseEat := @eat Creature numBowls _ .mouse
def catEaten := @eaten Creature numBowls _ .cat
def mouseEaten := @eaten Creature numBowls _ .mouse
def catAfterEating (kind : Creature → Kind) := @afterEating Creature numBowls _ kind .cat
def mouseAfterEating (kind : Creature → Kind) := @afterEating Creature numBowls _ kind .mouse

def ofKind (k : Kind) (cat mouse : α) : α :=
  match k with
  | .cat => cat
  | .mouse => mouse

def next (kind : Creature → Kind) (s : System Creature numBowls) (p : Creature) : Option (System Creature numBowls) :=
  match s.pc p with
  | .home => none
  | .turnLock bowl => lockSet s p (.takeTurn bowl)
  | .takeTurn bowl => unlockSet (takeTurn (kind p) s) p (.bowlLock bowl)
  | .bowlLock bowl => lockBowl s p bowl (.checkLock bowl)
  | .checkLock bowl => lockSet s p (.check bowl)
  | .check bowl => ofKind (kind p) catBeforeEating mouseBeforeEating s p bowl
  | .cvWait bowl => unlockBowl s p bowl (.asleep bowl)
  | .asleep _ => none
  | .cvRelock bowl => lockBowl s p bowl (.recheckLock bowl)
  | .recheckLock bowl => lockSet s p (.recheck bowl)
  | .recheck bowl => ofKind (kind p) catBeforeEating mouseBeforeEating (woken (kind p) s) p bowl
  | .eat bowl => ofKind (kind p) catEat mouseEat s p bowl
  | .eating bowl => ofKind (kind p) catEaten mouseEaten s p bowl
  | .afterLock bowl => lockSet s p (.after bowl)
  | .after bowl => ofKind (kind p) (catAfterEating kind) (mouseAfterEating kind) s p bowl
  | .setUnlock bowl => unlockSet s p (.bowlUnlock bowl)
  | .bowlUnlock bowl => unlockBowl {s with loops := update s.loops p (s.loops p-1)} p bowl .home

-- A turn of the loop in cat_simulation and mouse_simulation begins with the choice of a bowl.
inductive Event (Creature : Type) (numBowls : Nat) where
  | choose (p : Creature) (bowl : Fin numBowls)
  | run (p : Creature)

def step (kind : Creature → Kind) (s : System Creature numBowls) : Event Creature numBowls →
    Option (System Creature numBowls)
  | .choose p bowl =>
    if s.pc p = .home ∧ s.loops p > 0 then some {s with pc := update s.pc p (.turnLock bowl)} else none
  | .run p => next kind s p

lemma ofKind_beforeEating (k : Kind) :
    ofKind k catBeforeEating mouseBeforeEating = @beforeEating Creature numBowls _ k := by
  cases k <;> rfl

lemma ofKind_eat (k : Kind) : ofKind k catEat mouseEat = @eat Creature numBowls _ k := by
  cases k <;> rfl

lemma ofKind_eaten (k : Kind) : ofKind k catEaten mouseEaten = @eaten Creature numBowls _ k := by
  cases k <;> rfl

lemma ofKind_afterEating (kind : Creature → Kind) (k : Kind) :
    ofKind k (catAfterEating kind) (mouseAfterEating kind) = @afterEating Creature numBowls _ kind k := by
  cases k <;> rfl

@[simp] lemma Kind.other_ne (k : Kind) : k.other ≠ k := by
  cases k <;> simp [Kind.other]

@[simp] lemma Kind.other_other (k : Kind) : k.other.other = k := by
  cases k <;> rfl

lemma Kind.eq_other {l : Kind} (differs : k ≠ l) : k = l.other := by
  cases k <;> cases l <;> simp_all [Kind.other]

@[simp] def holdsSet : Pc numBowls → Bool
  | .takeTurn _ | .check _ | .recheck _ | .after _ | .setUnlock _ => true
  | _ => false

@[simp] def holdsBowl (bowl : Fin numBowls) : Pc numBowls → Bool
  | .checkLock here | .check here | .cvWait here | .recheckLock here | .recheck here | .eat here | .eating here
  | .afterLock here | .after here | .setUnlock here | .bowlUnlock here => here = bowl
  | _ => false

@[simp] def admitted : Pc numBowls → Bool
  | .eat _ | .eating _ | .afterLock _ | .after _ => true
  | _ => false

@[simp] def admittedAt (bowl : Fin numBowls) : Pc numBowls → Bool
  | .eat here | .eating here | .afterLock here | .after here => here = bowl
  | _ => false

@[simp] def sleeper : Pc numBowls → Bool
  | .cvWait _ | .asleep _ | .cvRelock _ | .recheckLock _ | .recheck _ => true
  | _ => false

@[simp] def eatsAt (bowl : Fin numBowls) : Pc numBowls → Bool
  | .eating here => here = bowl
  | _ => false

@[simp] def eats : Pc numBowls → Bool
  | .eating _ => true
  | _ => false

def many [Fintype Creature] (kind : Creature → Kind) (k : Kind) (place : Pc numBowls → Bool)
    (pc : Creature → Pc numBowls) : Nat :=
  census (fun q here => decide (kind q = k) && place here) pc

section Counting
variable [Fintype Creature] {kind : Creature → Kind} {k : Kind} {place wider : Pc numBowls → Bool}
  {pc pc' : Creature → Pc numBowls} {p q : Creature} {now : Pc numBowls} {counter : Kind → Int}

section
omit [DecidableEq Creature]

lemma many_pos : 0 < many kind k place pc ↔ ∃ q, kind q = k ∧ place (pc q) := by
  simp [many,census_pos]

lemma many_zero : many kind k place pc = 0 ↔ ∀ q, kind q = k → place (pc q) = false := by
  simp [many,census_zero]

end

def Counted (kind : Creature → Kind) (place : Pc numBowls → Bool) (counter : Kind → Int)
    (pc : Creature → Pc numBowls) : Prop :=
  ∀ k, counter k = many kind k place pc

section
omit [DecidableEq Creature]

lemma Counted.nonneg (counted : Counted kind place counter pc) (k : Kind) : 0 ≤ counter k := by
  rw [counted k]
  exact Int.natCast_nonneg _

lemma Counted.pos (counted : Counted kind place counter pc) : 0 < counter k ↔ ∃ q, kind q = k ∧ place (pc q) := by
  rw [counted k,Int.natCast_pos,many_pos]

lemma Counted.zero (counted : Counted kind place counter pc) :
    counter k = 0 ↔ ∀ q, kind q = k → place (pc q) = false := by
  rw [counted k,Int.natCast_eq_zero,many_zero]

lemma Counted.congr (counted : Counted kind place counter pc) (eq : ∀ q, place (pc' q) = place (pc q)) :
    Counted kind place counter pc' := by
  intro k
  rw [counted k]
  congr 1
  apply census_congr
  intro q
  rw [eq q]

end

lemma Counted.keep (counted : Counted kind place counter pc) (eq : place now = place (pc p)) :
    Counted kind place counter (update pc p now) := by
  apply counted.congr
  intro q
  by_cases self : q = p
  · simp [self,eq]
  · simp [self]

lemma many_other (differs : kind p ≠ k) : many kind k place (update pc p now) = many kind k place pc := by
  apply census_keep
  simp [differs]

lemma Counted.join (counted : Counted kind place counter pc) (pre : place (pc p) = false) (joins : place now) :
    Counted kind place (update counter (kind p) (counter (kind p)+1)) (update pc p now) := by
  intro k
  by_cases mine : kind p = k
  · subst mine
    have joined : many kind (kind p) place (update pc p now) = many kind (kind p) place pc+1 :=
      census_join (by simp [pre]) (by simp [joins])
    rw [update_self,joined,counted (kind p)]
    push_cast
    rfl
  rw [update_of_ne (Ne.symm mine),many_other mine]
  exact counted k

lemma Counted.leave (counted : Counted kind place counter pc) (pre : place (pc p)) (leaves : place now = false) :
    Counted kind place (update counter (kind p) (counter (kind p)-1)) (update pc p now) := by
  intro k
  by_cases mine : kind p = k
  · subst mine
    have left : many kind (kind p) place (update pc p now)+1 = many kind (kind p) place pc :=
      census_leave (by simp [pre]) (by simp [leaves])
    rw [update_self,counted (kind p),←left]
    push_cast
    omega
  rw [update_of_ne (Ne.symm mine),many_other mine]
  exact counted k

end Counting

section
omit [DecidableEq Creature]

lemma wakeAll_class (kind : Creature → Kind) (k : Kind) (pc : Creature → Pc numBowls) {place : Pc numBowls → Bool}
    (eq : ∀ bowl, place (.cvRelock bowl) = place (.asleep bowl)) (q : Creature) :
    place (wakeAll kind k pc q) = place (pc q) := by
  unfold wakeAll
  split
  next bowl at_ =>
      rw [at_]
      split
      · exact eq bowl
      · rfl
  next => rfl

lemma wakeAll_self {kind : Creature → Kind} {pc : Creature → Pc numBowls}
    (awake : ∀ bowl, pc q ≠ .asleep bowl) : wakeAll kind k pc q = pc q := by
  unfold wakeAll
  split
  next bowl at_ => exact absurd at_ (awake bowl)
  next => rfl

end

structure Locks (s : System Creature numBowls) : Prop where
  set : Held holdsSet s.setCatmouseEat s.pc
  bowl : ∀ bowl, Held (holdsBowl bowl) (s.lkForBowls bowl) s.pc

-- The counters of both files, and who eats from which bowl. The two kinds are not admitted together.
structure Counts [Fintype Creature] (kind : Creature → Kind) (s : System Creature numBowls) : Prop where
  eating : Counted kind admitted s.eating s.pc
  sleeping : Counted kind sleeper s.sleeping s.pc
  eatingCount : Counted kind eats s.eatingCount s.pc
  bowls : ∀ bowl k, s.bowls bowl = some k ↔ ∃ q, kind q = k ∧ eatsAt bowl (s.pc q) = true
  apart : ∀ k, 0 < s.eating k → s.eating k.other = 0

variable {s t : System Creature numBowls} {p : Creature} {now : Pc numBowls} {bowl : Fin numBowls}

section
variable (locks : Locks s)
include locks

lemma Locks.keep (set : holdsSet now = holdsSet (s.pc p)) (bowl : ∀ bowl, holdsBowl bowl now = holdsBowl bowl (s.pc p))
    (fields : t.setCatmouseEat = s.setCatmouseEat ∧ t.lkForBowls = s.lkForBowls) (moved : t.pc = update s.pc p now) :
    Locks t := by
  constructor
  · rw [fields.1,moved]
    exact locks.set.keep set
  intro here
  rw [fields.2,moved]
  exact (locks.bowl here).keep (bowl here)

lemma Locks.lockSet (gets : holdsSet now)
    (bowl : ∀ bowl, holdsBowl bowl now = holdsBowl bowl (s.pc p)) (did : lockSet s p now = some t) : Locks t := by
  obtain ⟨free,eq⟩ := ite_none_right_eq_some.mp did
  cases eq
  constructor
  · have held := locks.set
    rw [free] at held
    exact held.take gets
  intro here
  exact (locks.bowl here).keep (bowl here)

lemma Locks.unlockSet (leaves : holdsSet now = false)
    (bowl : ∀ bowl, holdsBowl bowl now = holdsBowl bowl (s.pc p)) (did : unlockSet s p now = some t) : Locks t := by
  obtain ⟨mine,eq⟩ := ite_none_right_eq_some.mp did
  cases eq
  constructor
  · have held := locks.set
    rw [mine] at held
    exact held.drop leaves
  intro here
  exact (locks.bowl here).keep (bowl here)

lemma Locks.lockBowl (set : holdsSet now = holdsSet (s.pc p)) (gets : holdsBowl bowl now)
    (rest : ∀ other ≠ bowl, holdsBowl other now = holdsBowl other (s.pc p))
    (did : lockBowl s p bowl now = some t) : Locks t := by
  obtain ⟨free,eq⟩ := ite_none_right_eq_some.mp did
  cases eq
  constructor
  · exact locks.set.keep set
  intro here
  by_cases this : here = bowl
  · subst this
    have held := locks.bowl here
    rw [free] at held
    simpa using held.take gets
  · simpa [this] using (locks.bowl here).keep (rest here this)

lemma Locks.unlockBowl (set : holdsSet now = holdsSet (s.pc p))
    (leaves : holdsBowl bowl now = false) (rest : ∀ other ≠ bowl, holdsBowl other now = holdsBowl other (s.pc p))
    (did : unlockBowl s p bowl now = some t) : Locks t := by
  obtain ⟨mine,eq⟩ := ite_none_right_eq_some.mp did
  cases eq
  constructor
  · exact locks.set.keep set
  intro here
  by_cases this : here = bowl
  · subst this
    have held := locks.bowl here
    rw [mine] at held
    simpa using held.drop leaves
  · simpa [this] using (locks.bowl here).keep (rest here this)

end

lemma wakeAll_update (kind : Creature → Kind) (k : Kind) (pc : Creature → Pc numBowls)
    (awake : ∀ bowl, now ≠ .asleep bowl) : wakeAll kind k (update pc p now) = update (wakeAll kind k pc) p now := by
  funext q
  by_cases self : q = p
  · subst self
    rw [update_self]
    have here : update pc q now q = now := update_self ..
    rw [wakeAll_self (by simpa [here] using awake),here]
  · simp [wakeAll,self]

lemma afterEating_eq (kind : Creature → Kind) (k : Kind) : afterEating kind k s p bowl = passTurn kind k {s with
      eating := update s.eating k (s.eating k-1)
      pc := update s.pc p (.setUnlock bowl)} p bowl := by
  have awake : ∀ here, Pc.setUnlock bowl ≠ .asleep here := by simp
  unfold afterEating passTurn cvBroadcast
  simp only [wakeAll_update kind _ s.pc awake]
  split
  · split <;> rfl
  split
  · rfl
  · split <;> rfl

lemma beforeEating_woken (k : Kind) : beforeEating k (woken k s) p bowl =
    beforeEating k {woken k s with pc := update s.pc p (.check bowl)} p bowl := by
  unfold beforeEating unlockSet woken
  simp only [update_idem]

section Counts
variable [Fintype Creature] {kind : Creature → Kind}

omit [Fintype Creature] in
lemma eater_keep (eq : eatsAt bowl now = eatsAt bowl (s.pc p)) (k : Kind) :
    (∃ q, kind q = k ∧ eatsAt bowl (update s.pc p now q)) ↔ ∃ q, kind q = k ∧ eatsAt bowl (s.pc q) := by
  have here : ∀ q, eatsAt bowl (update s.pc p now q) = eatsAt bowl (s.pc q) := by
    intro q
    by_cases self : q = p
    · simp only [self,update_self,eq]
    · rw [update_of_ne self]
  simp only [here]

-- A move between places that are counted alike.
structure Alike (was now : Pc numBowls) : Prop where
  admitted : admitted now = admitted was
  sleeper : sleeper now = sleeper was
  eats : eats now = eats was
  eatsAt : ∀ bowl, eatsAt bowl now = eatsAt bowl was

lemma Counts.keep (counts : Counts kind s) (alike : Alike (s.pc p) now)
    (fields : t.eating = s.eating ∧ t.sleeping = s.sleeping ∧ t.eatingCount = s.eatingCount ∧ t.bowls = s.bowls)
    (moved : t.pc = update s.pc p now) : Counts kind t := by
  obtain ⟨eating,sleeping,eatingCount,bowls⟩ := fields
  constructor
  · rw [eating,moved]
    exact counts.eating.keep alike.admitted
  · rw [sleeping,moved]
    exact counts.sleeping.keep alike.sleeper
  · rw [eatingCount,moved]
    exact counts.eatingCount.keep alike.eats
  · intro bowl k
    rw [bowls,moved,eater_keep (alike.eatsAt bowl)]
    exact counts.bowls bowl k
  rw [eating]
  exact counts.apart

omit [DecidableEq Creature] in
lemma Counts.wake (counts : Counts kind s) (k : Kind) (turn : Int) :
    Counts kind {s with turn := turn,pc := wakeAll kind k s.pc} := by
  constructor
  · exact counts.eating.congr (wakeAll_class kind k s.pc fun _ => rfl)
  · exact counts.sleeping.congr (wakeAll_class kind k s.pc fun _ => rfl)
  · exact counts.eatingCount.congr (wakeAll_class kind k s.pc fun _ => rfl)
  · intro bowl k'
    rw [counts.bowls bowl k']
    simp only [wakeAll_class kind k s.pc fun _ => (rfl : eatsAt bowl _ = eatsAt bowl _)]
  · exact counts.apart

omit [Fintype Creature] [DecidableEq Creature] in
lemma Locks.wake (locks : Locks s) (k : Kind) (turn : Int) : Locks {s with turn := turn,pc := wakeAll kind k s.pc} := by
  constructor
  · exact locks.set.congr (wakeAll_class kind k s.pc fun _ => rfl)
  intro bowl
  exact (locks.bowl bowl).congr (wakeAll_class kind k s.pc fun _ => rfl)

structure Sound (kind : Creature → Kind) (s : System Creature numBowls) : Prop where
  locks : Locks s
  counts : Counts kind s

lemma Sound.lockSet (sound : Sound kind s) (gets : holdsSet now)
    (bowl : ∀ bowl, holdsBowl bowl now = holdsBowl bowl (s.pc p)) (alike : Alike (s.pc p) now)
    (did : lockSet s p now = some t) : Sound kind t := by
  refine ⟨sound.locks.lockSet gets bowl did,?_⟩
  obtain ⟨_,eq⟩ := ite_none_right_eq_some.mp did
  cases eq
  exact sound.counts.keep alike ⟨rfl,rfl,rfl,rfl⟩ rfl

lemma Sound.lockBowl (sound : Sound kind s) (set : holdsSet now = holdsSet (s.pc p)) (gets : holdsBowl bowl now)
    (rest : ∀ other ≠ bowl, holdsBowl other now = holdsBowl other (s.pc p)) (alike : Alike (s.pc p) now)
    (did : lockBowl s p bowl now = some t) : Sound kind t := by
  refine ⟨sound.locks.lockBowl set gets rest did,?_⟩
  obtain ⟨_,eq⟩ := ite_none_right_eq_some.mp did
  cases eq
  exact sound.counts.keep alike ⟨rfl,rfl,rfl,rfl⟩ rfl

lemma Sound.unlockBowl (sound : Sound kind s) (set : holdsSet now = holdsSet (s.pc p))
    (leaves : holdsBowl bowl now = false) (rest : ∀ other ≠ bowl, holdsBowl other now = holdsBowl other (s.pc p))
    (alike : Alike (s.pc p) now) (did : unlockBowl s p bowl now = some t) : Sound kind t := by
  refine ⟨sound.locks.unlockBowl set leaves rest did,?_⟩
  obtain ⟨_,eq⟩ := ite_none_right_eq_some.mp did
  cases eq
  exact sound.counts.keep alike ⟨rfl,rfl,rfl,rfl⟩ rfl

section
omit [DecidableEq Creature]

lemma Sound.turn (sound : Sound kind s) (turn : Int) : Sound kind {s with turn := turn} :=
  ⟨⟨sound.locks.set,sound.locks.bowl⟩,{sound.counts with}⟩

lemma Sound.loops (sound : Sound kind s) (loops : Creature → Nat) : Sound kind {s with loops := loops} :=
  ⟨⟨sound.locks.set,sound.locks.bowl⟩,{sound.counts with}⟩

end

lemma Sound.unlockSet (sound : Sound kind s) (leaves : holdsSet now = false)
    (bowl : ∀ bowl, holdsBowl bowl now = holdsBowl bowl (s.pc p)) (alike : Alike (s.pc p) now)
    (did : unlockSet s p now = some t) : Sound kind t := by
  refine ⟨sound.locks.unlockSet leaves bowl did,?_⟩
  obtain ⟨_,eq⟩ := ite_none_right_eq_some.mp did
  cases eq
  exact sound.counts.keep alike ⟨rfl,rfl,rfl,rfl⟩ rfl

omit [DecidableEq Creature] in
lemma Counts.apart_other (counts : Counts kind s) {k : Kind} (free : ¬s.eating k.other > 0) : s.eating k.other = 0 := by
  have nonneg := counts.eating.nonneg k.other
  omega

lemma Sound.beforeEating (sound : Sound kind s) (at_ : s.pc p = .check bowl)
    (did : beforeEating (kind p) s p bowl = some t) : Sound kind t := by
  have counts := sound.counts
  unfold CatMouse.beforeEating at did
  split at did
  · constructor
    · have locks : Locks {s with sleeping := update s.sleeping (kind p) (s.sleeping (kind p)+1)} :=
        ⟨sound.locks.set,sound.locks.bowl⟩
      exact locks.unlockSet rfl (by simp [at_]) did
    obtain ⟨_,eq⟩ := ite_none_right_eq_some.mp did
    cases eq
    constructor
    · exact counts.eating.keep (by simp [at_])
    · exact counts.sleeping.join (by simp [at_]) rfl
    · exact counts.eatingCount.keep (by simp [at_])
    · intro bowl k
      rw [eater_keep (by simp [at_])]
      exact counts.bowls bowl k
    · exact counts.apart
  rename_i free
  push Not at free
  have alone := counts.apart_other (not_lt.mpr free.2)
  constructor
  · have locks : Locks {s with eating := update s.eating (kind p) (s.eating (kind p)+1)} :=
      ⟨sound.locks.set,sound.locks.bowl⟩
    exact locks.unlockSet rfl (by simp [at_]) did
  obtain ⟨_,eq⟩ := ite_none_right_eq_some.mp did
  cases eq
  constructor
  · exact counts.eating.join (by simp [at_]) rfl
  · exact counts.sleeping.keep (by simp [at_])
  · exact counts.eatingCount.keep (by simp [at_])
  · intro bowl k
    rw [eater_keep (by simp [at_])]
    exact counts.bowls bowl k
  intro k eating
  by_cases mine : k = kind p
  · simpa [mine] using alone
  rw [Kind.eq_other mine] at eating
  simp [alone] at eating

lemma Sound.woken (sound : Sound kind s) (at_ : s.pc p = .recheck bowl) :
    Sound kind {woken (kind p) s with pc := update s.pc p (.check bowl)} := by
  have counts := sound.counts
  constructor
  · exact sound.locks.keep (p := p) (by simp [at_]) (by simp [at_]) ⟨rfl,rfl⟩ rfl
  constructor
  · exact counts.eating.keep (by simp [at_])
  · exact counts.sleeping.leave (by simp [at_]) rfl
  · exact counts.eatingCount.keep (by simp [at_])
  · intro bowl k
    rw [eater_keep (by simp [at_])]
    exact counts.bowls bowl k
  · exact counts.apart

section
omit [Fintype Creature] [DecidableEq Creature]

lemma holds_of_eats (eats : eatsAt bowl pc) : holdsBowl bowl pc := by
  cases pc <;> simp_all

lemma admitted_of_eats (eating : eats pc) : admitted pc := by
  cases pc <;> simp_all

end

section
omit [DecidableEq Creature]

lemma Sound.free (sound : Sound kind s) (at_ : s.pc p = .eat bowl) :
    s.bowls bowl = none ∧ s.eatingCount (kind p).other = 0 := by
  constructor
  · cases dish : s.bowls bowl with
    | none => rfl
    | some k =>
      obtain ⟨q,_,eats⟩ := (sound.counts.bowls bowl k).mp dish
      have eq : q = p := (sound.locks.bowl bowl).unique (holds_of_eats eats) (by simp [at_])
      simp [eq,at_] at eats
  have mine : 0 < s.eating (kind p) := sound.counts.eating.pos.mpr ⟨p,rfl,by simp [at_]⟩
  have none_ := sound.counts.eating.zero.mp (sound.counts.apart _ mine)
  apply sound.counts.eatingCount.zero.mpr
  intro q other
  by_contra eating
  have also := admitted_of_eats (Bool.not_eq_false _ ▸ eating)
  rw [none_ q other] at also
  cases also

lemma Sound.full (sound : Sound kind s) (at_ : s.pc p = .eating bowl) :
    s.eatingCount (kind p) > 0 ∧ s.bowls bowl = some (kind p) :=
  ⟨sound.counts.eatingCount.pos.mpr ⟨p,rfl,by simp [at_]⟩,(sound.counts.bowls bowl (kind p)).mpr ⟨p,rfl,by simp [at_]⟩⟩

end

lemma Sound.eat (sound : Sound kind s) (at_ : s.pc p = .eat bowl) :
    ∃ t, eat (kind p) s p bowl = some t ∧ Sound kind t := by
  obtain ⟨empty,nobody⟩ := sound.free at_
  have counts := sound.counts
  have did : CatMouse.eat (kind p) s p bowl = some {s with
      eatingCount := update s.eatingCount (kind p) (s.eatingCount (kind p)+1)
      bowls := update s.bowls bowl (some (kind p))
      pc := update s.pc p (.eating bowl)} := by
    unfold CatMouse.eat
    simp [empty,nobody]
  refine ⟨_,did,sound.locks.keep (p := p) (by simp [at_]) (by simp [at_]) ⟨rfl,rfl⟩ rfl,?_⟩
  constructor
  · exact counts.eating.keep (by simp [at_])
  · exact counts.sleeping.keep (by simp [at_])
  · exact counts.eatingCount.join (by simp [at_]) rfl
  · intro here k
    by_cases this : here = bowl
    · subst this
      simp only [update_self,some.injEq]
      constructor
      · intro mine
        exact ⟨p,mine,by simp⟩
      intro eater
      obtain ⟨q,kind_,eats⟩ := eater
      by_cases self : q = p
      · rw [←self]
        exact kind_
      rw [update_of_ne self] at eats
      have full := (counts.bowls here (kind q)).mpr ⟨q,rfl,eats⟩
      simp [empty] at full
    rw [eater_keep (by simp [at_,Ne.symm this])]
    simpa [this] using counts.bowls here k
  · exact counts.apart

lemma Sound.eaten (sound : Sound kind s) (at_ : s.pc p = .eating bowl) :
    ∃ t, eaten (kind p) s p bowl = some t ∧ Sound kind t := by
  have full := sound.full at_
  have counts := sound.counts
  refine ⟨_,if_pos full,sound.locks.keep (p := p) (by simp [at_]) (by simp [at_]) ⟨rfl,rfl⟩ rfl,?_⟩
  constructor
  · exact counts.eating.keep (by simp [at_])
  · exact counts.sleeping.keep (by simp [at_])
  · exact counts.eatingCount.leave (by simp [at_]) rfl
  · intro here k
    by_cases this : here = bowl
    · subst this
      simp only [update_self]
      refine iff_of_false (by simp) ?_
      intro eater
      obtain ⟨q,_,eats⟩ := eater
      by_cases self : q = p
      · simp [self] at eats
      rw [update_of_ne self] at eats
      exact self ((sound.locks.bowl here).unique (holds_of_eats eats) (by simp [at_]))
    rw [eater_keep (by simp [at_,Ne.symm this])]
    simpa [this] using counts.bowls here k
  · exact counts.apart

lemma Sound.leaves (sound : Sound kind s) (at_ : s.pc p = .after bowl) : Sound kind {s with
      eating := update s.eating (kind p) (s.eating (kind p)-1)
      pc := update s.pc p (.setUnlock bowl)} := by
  have counts := sound.counts
  have mine : 0 < s.eating (kind p) := counts.eating.pos.mpr ⟨p,rfl,by simp [at_]⟩
  have alone := counts.apart _ mine
  refine ⟨sound.locks.keep (p := p) (by simp [at_]) (by simp [at_]) ⟨rfl,rfl⟩ rfl,?_⟩
  constructor
  · exact counts.eating.leave (by simp [at_]) rfl
  · exact counts.sleeping.keep (by simp [at_])
  · exact counts.eatingCount.keep (by simp [at_])
  · intro bowl k
    rw [eater_keep (by simp [at_])]
    exact counts.bowls bowl k
  intro k eating
  by_cases eq : k = kind p
  · simpa [eq] using alone
  rw [Kind.eq_other eq] at eating
  simp [alone] at eating

lemma Sound.passTurn (sound : Sound kind s) (did : passTurn kind k s p bowl = some t) : Sound kind t := by
  unfold CatMouse.passTurn CatMouse.cvBroadcast at did
  split at did
  · obtain ⟨_,eq⟩ := ite_none_right_eq_some.mp did
    cases eq
    exact ⟨sound.locks.wake _ _,sound.counts.wake _ _⟩
  split at did
  · cases did
    exact sound.turn _
  obtain ⟨_,eq⟩ := ite_none_right_eq_some.mp did
  cases eq
  exact ⟨sound.locks.wake _ s.turn,sound.counts.wake _ s.turn⟩

lemma Sound.next (sound : Sound kind s) (did : next kind s p = some t) : Sound kind t := by
  unfold CatMouse.next at did
  simp only [ofKind_beforeEating,ofKind_eat,ofKind_eaten,ofKind_afterEating] at did
  split at did
  next => cases did
  next bowl at_ => exact sound.lockSet rfl (by simp [at_]) (by constructor <;> simp [at_]) did
  next bowl at_ =>
      have turned : Sound kind (takeTurn (kind p) s) := sound.turn _
      exact turned.unlockSet rfl (by simp [takeTurn,at_]) (by constructor <;> simp [takeTurn,at_]) did
  next bowl at_ =>
      have rest : ∀ other ≠ bowl, holdsBowl other (.checkLock bowl) = holdsBowl other (s.pc p) := by
        intro other differs
        simp [at_,Ne.symm differs]
      exact sound.lockBowl (by simp [at_]) (by simp) rest (by constructor <;> simp [at_]) did
  next bowl at_ => exact sound.lockSet rfl (by simp [at_]) (by constructor <;> simp [at_]) did
  next bowl at_ => exact sound.beforeEating at_ did
  next bowl at_ =>
      have rest : ∀ other ≠ bowl, holdsBowl other (.asleep bowl) = holdsBowl other (s.pc p) := by
        intro other differs
        simp [at_,Ne.symm differs]
      exact sound.unlockBowl (by simp [at_]) (by simp) rest (by constructor <;> simp [at_]) did
  next => cases did
  next bowl at_ =>
      have rest : ∀ other ≠ bowl, holdsBowl other (.recheckLock bowl) = holdsBowl other (s.pc p) := by
        intro other differs
        simp [at_,Ne.symm differs]
      exact sound.lockBowl (by simp [at_]) (by simp) rest (by constructor <;> simp [at_]) did
  next bowl at_ => exact sound.lockSet rfl (by simp [at_]) (by constructor <;> simp [at_]) did
  next bowl at_ =>
      rw [beforeEating_woken] at did
      exact (sound.woken at_).beforeEating (by simp) did
  next bowl at_ =>
      obtain ⟨t,eq,after⟩ := sound.eat at_
      rw [eq] at did
      cases did
      exact after
  next bowl at_ =>
      obtain ⟨t,eq,after⟩ := sound.eaten at_
      rw [eq] at did
      cases did
      exact after
  next bowl at_ => exact sound.lockSet rfl (by simp [at_]) (by constructor <;> simp [at_]) did
  next bowl at_ =>
      rw [afterEating_eq] at did
      exact (sound.leaves at_).passTurn did
  next bowl at_ => exact sound.unlockSet rfl (by simp [at_]) (by constructor <;> simp [at_]) did
  next bowl at_ =>
      have rest : ∀ other ≠ bowl, holdsBowl other (.home : Pc numBowls) = holdsBowl other (s.pc p) := by
        intro other differs
        simp [at_,Ne.symm differs]
      exact (sound.loops (update s.loops p (s.loops p-1))).unlockBowl (by simp [at_]) rfl rest
        (by constructor <;> simp [at_]) did

lemma Sound.step (sound : Sound kind s) (did : step kind s event = some t) : Sound kind t := by
  cases event with
  | run p => exact sound.next did
  | choose p bowl =>
    obtain ⟨⟨at_,_⟩,eq⟩ := ite_none_right_eq_some.mp did
    cases eq
    constructor
    · exact sound.locks.keep (p := p) (by simp [at_]) (by simp [at_]) ⟨rfl,rfl⟩ rfl
    · exact sound.counts.keep (p := p) (by constructor <;> simp [at_]) ⟨rfl,rfl,rfl,rfl⟩ rfl

omit [DecidableEq Creature] in
lemma initial_sound (kind : Creature → Kind) (loops : Nat) : Sound kind (initial loops : System Creature numBowls) := by
  have nobody : ∀ {place : Pc numBowls → Bool}, place .home = false →
      Counted kind place (fun _ => 0) fun _ : Creature => (.home : Pc numBowls) := by
    intro place away k
    have none_ : many kind k place (fun _ => .home) = 0 := many_zero.mpr fun _ _ => away
    simp [none_]
  refine ⟨⟨?_,?_⟩,nobody rfl,nobody rfl,nobody rfl,?_,?_⟩
  · intro p
    simp [initial]
  · intro bowl p
    simp [initial]
  · intro bowl k
    simp [initial]
  intro k _
  rfl

lemma reached_sound (path : Reached (step kind) Free (initial loops) s) : Sound kind s :=
  path.invariant (Sound kind) (initial_sound kind loops) fun _ sound _ did => sound.step did

omit [Fintype Creature] [DecidableEq Creature] in
lemma holds_of_admitted (at_ : admittedAt bowl pc) : holdsBowl bowl pc := by
  cases pc <;> simp_all

theorem cats_and_mice {loops : Nat} (path : Reached (step kind) Free (initial loops) s) :
    (∀ p q, kind p = .cat → kind q = .mouse → ¬(admitted (s.pc p) = true ∧ admitted (s.pc q) = true)) ∧
    (∀ bowl p q, admittedAt bowl (s.pc p) = true → admittedAt bowl (s.pc q) = true → p = q) ∧
    (∀ k, s.eating k = many kind k admitted s.pc ∧ 0 ≤ s.eating k) ∧
    (∀ k, s.sleeping k = many kind k sleeper s.pc ∧ 0 ≤ s.sleeping k) ∧
    ∀ p bowl, s.pc p = .eat bowl ∨ s.pc p = .eating bowl → ∃ t, step kind s (.run p) = some t := by
  have sound := reached_sound path
  have counts := sound.counts
  refine ⟨?_,?_,?_,?_,?_⟩
  · intro p q cat mouse both
    have eating : 0 < s.eating .cat := counts.eating.pos.mpr ⟨p,cat,both.1⟩
    have free := counts.eating.zero.mp (counts.apart .cat eating) q mouse
    rw [both.2] at free
    cases free
  · intro bowl p q first second
    exact (sound.locks.bowl bowl).unique (holds_of_admitted first) (holds_of_admitted second)
  · intro k
    exact ⟨counts.eating k,counts.eating.nonneg k⟩
  · intro k
    exact ⟨counts.sleeping k,counts.sleeping.nonneg k⟩
  intro p bowl at_
  simp only [step,next]
  rcases at_ with at_ | at_
  · obtain ⟨t,did,_⟩ := sound.eat at_
    exact ⟨t,by simpa [at_,ofKind_eat] using did⟩
  obtain ⟨t,did,_⟩ := sound.eaten at_
  exact ⟨t,by simpa [at_,ofKind_eaten] using did⟩

end Counts

def twoCats (p : Fin 3) : Kind := if p = 2 then .mouse else .cat

def feast : List (Event (Fin 3) 2) :=
  .choose 0 0 :: List.replicate 6 (.run 0)++.choose 1 1 :: List.replicate 6 (.run 1) ++
    .choose 2 0 :: List.replicate 2 (.run 2)

theorem cats_and_mice_feast : ∃ s : System (Fin 3) 2, run (step twoCats) (initial 1) feast = some s ∧
    s.eating .cat = 2 ∧ s.pc 0 = .eating 0 ∧ s.pc 1 = .eating 1 ∧ s.pc 2 = .bowlLock 0 ∧
    s.eating .cat = many twoCats .cat admitted s.pc ∧ ∃ t, step twoCats s (.run 1) = some t := by
  have ran : (run (step twoCats) (initial 1) feast).map (fun s => (s.eating .cat,s.pc 0,s.pc 1,s.pc 2)) =
      some (2,.eating 0,.eating 1,.bowlLock 0) := by decide +kernel
  obtain ⟨s,reached,shown⟩ := map_eq_some_iff.mp ran
  simp only [Prod.mk.injEq] at shown
  obtain ⟨both,first,second,mouse⟩ := shown
  have safe := cats_and_mice (run_reached reached)
  exact ⟨s,reached,both,first,second,mouse,(safe.2.2.1 .cat).1,safe.2.2.2.2 1 1 (.inr second)⟩
end ToyOS.CatMouse
