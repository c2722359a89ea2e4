import Mathlib

namespace ToyOS.Ledger
open Function

-- A map of the used cells below `n` that is exact: every used cell has one owner, and what an owner has is used.
structure Exact {Owner : Type} (n : Nat) (used : Nat → Bool) (own : Owner → Option Nat) : Prop where
  held : ∀ o b, own o = some b → b < n ∧ used b = true
  owned : ∀ b, b < n → used b = true → ∃ o, own o = some b
  unique : ∀ o p b, own o = some b → own p = some b → o = p

variable {Owner : Type} {n b : Nat} {used : Nat → Bool} {own : Owner → Option Nat} {o p : Owner}

lemma Exact.unowned (exact_ : Exact n used own) (free : used b = false) (o : Owner) : own o ≠ some b := by
  intro held
  have marked := (exact_.held o b held).2
  rw [free] at marked
  cases marked

lemma Exact.other (exact_ : Exact n used own) (held : own o = some b) (ne : p ≠ o) : own p ≠ some b :=
  fun also => ne (exact_.unique p o b also held)

variable [DecidableEq Owner]

section
variable (exact_ : Exact n used own)
include exact_

lemma Exact.take (free : used b = false) (lt : b < n)
    (vacant : own o = none) : Exact n (update used b true) (update own o (some b)) := by
  have old : ∀ {p c}, p ≠ o → update own o (some b) p = some c → own p = some c ∧ c ≠ b := by
    intro p c other held
    rw [update_of_ne other] at held
    refine ⟨held,?_⟩
    rintro rfl
    exact exact_.unowned free p held
  refine ⟨?_,?_,?_⟩
  · intro p c held
    rcases eq_or_ne p o with rfl | other
    · rw [update_self] at held
      cases held
      exact ⟨lt,update_self ..⟩
    obtain ⟨held,ne⟩ := old other held
    rw [update_of_ne ne]
    exact exact_.held p c held
  · intro c inside marked
    rcases eq_or_ne c b with rfl | ne
    · exact ⟨o,update_self ..⟩
    rw [update_of_ne ne] at marked
    obtain ⟨p,held⟩ := exact_.owned c inside marked
    refine ⟨p,?_⟩
    rwa [update_of_ne]
    rintro rfl
    rw [vacant] at held
    cases held
  intro p q c one two
  rcases eq_or_ne p o with rfl | left <;> rcases eq_or_ne q p with rfl | ne
  · rfl
  · rw [update_self] at one
    cases one
    exact absurd rfl (old ne two).2
  · rfl
  rcases eq_or_ne q o with rfl | right
  · rw [update_self] at two
    cases two
    exact absurd rfl (old left one).2
  · exact exact_.unique p q c (old left one).1 (old right two).1

lemma Exact.release (held : own o = some b) : Exact n (update used b false) (update own o none) := by
  have old : ∀ {p c}, update own o none p = some c → p ≠ o ∧ own p = some c ∧ c ≠ b := by
    intro p c hit
    rcases eq_or_ne p o with rfl | other
    · rw [update_self] at hit
      cases hit
    rw [update_of_ne other] at hit
    refine ⟨other,hit,?_⟩
    rintro rfl
    exact other (exact_.unique p o c hit held)
  refine ⟨?_,?_,?_⟩
  · intro p c hit
    obtain ⟨_,hit,ne⟩ := old hit
    rw [update_of_ne ne]
    exact exact_.held p c hit
  · intro c inside marked
    have ne : c ≠ b := by
      rintro rfl
      rw [update_self] at marked
      cases marked
    rw [update_of_ne ne] at marked
    obtain ⟨p,hit⟩ := exact_.owned c inside marked
    refine ⟨p,?_⟩
    rwa [update_of_ne]
    rintro rfl
    exact ne (Option.some.inj (hit.symm.trans held))
  intro p q c first second
  exact exact_.unique p q c (old first).2.1 (old second).2.1

lemma Exact.move (held : own o = some b) (vacant : own p = none) :
    Exact n used (update (update own o none) p (some b)) := by
  have lt := exact_.held o b held
  have apart : p ≠ o := by
    rintro rfl
    rw [vacant] at held
    cases held
  have gone := exact_.release held
  have did := gone.take (o := p) (update_self b false used) lt.1 ((update_of_ne apart ..).trans vacant)
  rwa [update_idem,←lt.2,update_eq_self] at did

end
end ToyOS.Ledger
