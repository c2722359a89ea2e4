import Mathlib

namespace ToyOS.BlockStore
open Function Option

-- A run of consecutive cells.
structure Block where
  start : Nat
  length : Nat
  deriving DecidableEq

def Block.Covers (b : Block) (i : Nat) : Prop := b.start ≤ i ∧ i < b.start+b.length

instance (b : Block) (i : Nat) : Decidable (b.Covers i) :=
  inferInstanceAs (Decidable (_ ∧ _))

def Block.Within (b : Block) (lower upper : Nat) : Prop :=
  lower ≤ b.start ∧ 0 < b.length ∧ b.start+b.length ≤ upper

lemma covers_iff : Block.Covers ⟨start,length⟩ i ↔ start ≤ i ∧ i < start+length := Iff.rfl

lemma within_iff : Block.Within ⟨start,length⟩ lower upper ↔ lower ≤ start ∧ 0 < length ∧ start+length ≤ upper :=
  Iff.rfl

lemma Block.Within.covers_start {b : Block} (le : b.Within lower upper) : b.Covers b.start := by
  obtain ⟨_,pos,_⟩ := le
  exact ⟨le_rfl,by omega⟩

lemma Block.Within.bounds {b : Block} (le : b.Within lower upper) (covers : b.Covers i) : lower ≤ i ∧ i < upper := by
  obtain ⟨one,_,last⟩ := le
  obtain ⟨above,lt⟩ := covers
  omega

-- What an allocator of the cells lower..upper-1 has handed out, and to whom.
structure Store (Owner : Type) (lower upper : Nat) where
  holds : Owner → Option Block
  within : ∀ o b, holds o = some b → b.Within lower upper
  apart : ∀ o p b c i, holds o = some b → holds p = some c → b.Covers i → c.Covers i → o = p

variable {Owner : Type} {lower upper : Nat}

lemma Store.same {s t : Store Owner lower upper} (eq : s.holds = t.holds) : s = t := by
  cases s; cases t; cases eq; rfl

def Store.empty : Store Owner lower upper :=
  ⟨fun _ => none,fun _ _ held => absurd held (by simp),fun _ _ _ _ _ held => absurd held (by simp)⟩

def Store.Vacant (s : Store Owner lower upper) (i : Nat) : Prop :=
  ∀ o b, s.holds o = some b → ¬ b.Covers i

def Store.Drops (s t : Store Owner lower upper) (gone : Owner → Prop) : Prop :=
  ∀ o, (gone o → t.holds o = none) ∧ (¬ gone o → t.holds o = s.holds o)

lemma Store.Drops.trans {s : Store Owner lower upper} (left : s.Drops t one)
    (right : t.Drops u second) : s.Drops u fun o => one o ∨ second o := by
  intro o
  refine ⟨?_,fun neither => ?_⟩
  · intro either
    by_cases later : second o
    · exact (right o).1 later
    rw [(right o).2 later]
    exact (left o).1 (either.resolve_right later)
  rw [not_or] at neither
  rw [(right o).2 neither.2,(left o).2 neither.1]

section
variable [DecidableEq Owner]

def Store.add (s : Store Owner lower upper) (o : Owner) (b : Block)
    (within : b.Within lower upper) (vacant : ∀ i, b.Covers i → s.Vacant i) :
    Store Owner lower upper where
  holds := update s.holds o (some b)
  within := by
    intro p c held
    rcases eq_or_ne p o with rfl | other
    · rw [update_self] at held
      exact some.inj held ▸ within
    rw [update_of_ne other] at held
    exact s.within p c held
  apart := by
    intro p q c d i first second left right
    rcases eq_or_ne p o with newFirst | oldFirst <;> rcases eq_or_ne q o with newSecond | oldSecond
    · rw [newFirst,newSecond]
    · rw [newFirst,update_self] at first
      rw [update_of_ne oldSecond] at second
      cases some.inj first
      exact absurd right (vacant i left q d second)
    · rw [newSecond,update_self] at second
      rw [update_of_ne oldFirst] at first
      cases some.inj second
      exact absurd left (vacant i right p c first)
    rw [update_of_ne oldFirst] at first
    rw [update_of_ne oldSecond] at second
    exact s.apart p q c d i first second left right

def Store.remove (s : Store Owner lower upper) (o : Owner) : Store Owner lower upper where
  holds := update s.holds o none
  within := by
    intro p b held
    rcases eq_or_ne p o with rfl | other
    · rw [update_self] at held; cases held
    rw [update_of_ne other] at held
    exact s.within p b held
  apart := by
    intro p q b c i first second
    rcases eq_or_ne p o with rfl | otherFirst
    · rw [update_self] at first; cases first
    rcases eq_or_ne q o with rfl | otherSecond
    · rw [update_self] at second; cases second
    rw [update_of_ne otherFirst] at first
    rw [update_of_ne otherSecond] at second
    exact s.apart p q b c i first second

@[simp] lemma Store.add_holds (s : Store Owner lower upper) (le : b.Within lower upper)
    (vacant : ∀ i, b.Covers i → s.Vacant i) : (s.add o b le vacant).holds = update s.holds o (some b) := rfl

@[simp] lemma Store.remove_holds (s : Store Owner lower upper) (o : Owner) :
    (s.remove o).holds = update s.holds o none := rfl

lemma Store.add_cases {s : Store Owner lower upper} {le : b.Within lower upper} {vacant : ∀ i, b.Covers i → s.Vacant i}
    (held : (s.add o b le vacant).holds p = some c) : (p = o ∧ b = c) ∨ (p ≠ o ∧ s.holds p = some c) := by
  rcases eq_or_ne p o with eq | ne
  · rw [eq,add_holds,update_self] at held
    exact .inl ⟨eq,some.inj held⟩
  rw [add_holds,update_of_ne ne] at held
  exact .inr ⟨ne,held⟩

lemma Store.remove_cases {s : Store Owner lower upper} (held : (s.remove o).holds p = some b) :
    p ≠ o ∧ s.holds p = some b := by
  rcases eq_or_ne p o with eq | ne
  · rw [eq,remove_holds,update_self] at held
    cases held
  rw [remove_holds,update_of_ne ne] at held
  exact ⟨ne,held⟩

lemma Store.remove_drops (s : Store Owner lower upper) (o : Owner) : s.Drops (s.remove o) fun p => p = o :=
  fun _ => ⟨fun eq => eq ▸ update_self ..,fun other => update_of_ne other ..⟩

lemma Store.remove_add (s : Store Owner lower upper) (le : b.Within lower upper)
    (vacant : ∀ i, b.Covers i → s.Vacant i) (fresh : s.holds o = none) : (s.add o b le vacant).remove o = s := by
  apply Store.same
  rw [remove_holds,add_holds,update_idem,←fresh,update_eq_self]

end

def firstFit (free : Nat → Bool) (size : Nat) : Nat → Nat → Nat → Option Nat
  | 0,_,_ => none
  | remaining+1,i,length =>
    if free i then
      if length+1 = size then some (i-length)
      else firstFit free size remaining (i+1) (length+1)
    else firstFit free size remaining (i+1) 0

lemma firstFit_sound (hit : firstFit free size left i length = some start) (big : lower+length ≤ i)
    (known : ∀ j, i-length ≤ j → j < i → free j) : Block.Within ⟨start,size⟩ lower (i+left) ∧
      ∀ j, Block.Covers ⟨start,size⟩ j → free j := by
  induction left generalizing i length with
  | zero => cases hit
  | succ left ih =>
    unfold firstFit at hit
    split at hit
    · rename_i vacant
      -- the run before `i` grows by `i` itself
      have grown : ∀ j, i-length ≤ j → j < i+1 → free j := by
        intro j above lt
        rcases Nat.lt_or_eq_of_le (Nat.le_of_lt_succ lt) with pre | rfl
        · exact known j above pre
        · exact vacant
      split at hit
      · rename_i reached
        cases some.inj hit
        refine ⟨within_iff.mpr (by omega),?_⟩
        intro j covered
        obtain ⟨above,lt⟩ := covers_iff.mp covered
        exact grown j above (by omega)
      have res := ih hit (by omega) (fun j above lt => grown j (by omega) lt)
      rwa [Nat.add_right_comm] at res
    have res := ih hit (by omega) (fun j above lt => absurd lt (by omega))
    rwa [Nat.add_right_comm] at res

lemma firstFit_lowest (short : length < size)
    (later : i ≤ s+length) (inside : s+size ≤ i+left) (vacant : ∀ j, Block.Covers ⟨s,size⟩ j → free j) :
    ∃ start, firstFit free size left i length = some start ∧ start ≤ s := by
  induction left generalizing i length with
  | zero => omega
  | succ left ih =>
    unfold firstFit
    split
    · split
      · exact ⟨i-length,rfl,by omega⟩
      apply ih
      · omega
      · omega
      · omega
    rename_i used
    have pre : i < s := by
      by_contra reached
      exact used (vacant i (covers_iff.mpr (by omega)))
    apply ih
    · omega
    · omega
    · omega

def fill {α : Type} (cells : Nat → α) (value : α) : Nat → Nat → Nat → α
  | _,0 => cells
  | i,count+1 => fill (update cells i value) value (i+1) count

lemma fill_apply {α : Type} (cells : Nat → α) (value : α) (i count j : Nat) :
    fill cells value i count j = if Block.Covers ⟨i,count⟩ j then value else cells j := by
  induction count generalizing cells i with
  | zero =>
    have out : ¬ Block.Covers ⟨i,0⟩ j := by rw [covers_iff]; omega
    rw [if_neg out]
    rfl
  | succ count ih =>
    unfold fill
    rw [ih]
    rcases eq_or_ne j i with rfl | ne
    · have later : ¬ Block.Covers ⟨j+1,count⟩ j := by rw [covers_iff]; omega
      have one : Block.Covers ⟨j,count+1⟩ j := covers_iff.mpr (by omega)
      rw [if_neg later,if_pos one,update_self]
    rw [update_of_ne ne]
    refine if_congr ?_ rfl rfl
    rw [covers_iff,covers_iff]
    omega
end ToyOS.BlockStore
