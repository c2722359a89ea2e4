import Mathlib

namespace ToyOS.Tally

-- How often a value occurs among the first `n` of a sequence.
variable {α : Type} [DecidableEq α] {f g : Nat → α} {n slot : Nat} {x : α}

def tally (f : Nat → α) (n : Nat) (x : α) : Nat := Nat.count (fun k => f k = x) n
lemma tally_succ : tally f (n+1) x = tally f n x+if f n = x then 1 else 0 := Nat.count_succ _ _
lemma tally_le : tally f n x ≤ n := Nat.count_le _

lemma tally_congr (eq : ∀ k < n, g k = f k) : tally g n x = tally f n x := by
  induction n with
  | zero => rfl
  | succ n ih =>
    rw [tally_succ,tally_succ,ih fun k lt => eq k (Nat.lt_succ_of_lt lt),eq n (Nat.lt_succ_self n)]

lemma tally_pos : 0 < tally f n x ↔ ∃ k < n, f k = x := by
  induction n with
  | zero =>
    constructor
    · intro none_
      cases none_
    rintro ⟨k,lt,_⟩
    cases lt
  | succ n ih =>
    rw [tally_succ]
    constructor
    · intro some_
      by_cases last : f n = x
      · exact ⟨n,Nat.lt_succ_self n,last⟩
      rw [if_neg last,Nat.add_zero] at some_
      obtain ⟨k,lt,hit⟩ := ih.mp some_
      exact ⟨k,Nat.lt_succ_of_lt lt,hit⟩
    rintro ⟨k,lt,hit⟩
    by_cases last : k = n
    · rw [←last,if_pos hit]
      omega
    have pre := ih.mpr ⟨k,by omega,hit⟩
    omega

lemma tally_two {k l : Nat} (one : k < n) (two : l < n) (apart : k ≠ l) (hit : f k = x) (again : f l = x) :
    2 ≤ tally f n x := by
  induction n with
  | zero => cases one
  | succ n ih =>
    rw [tally_succ]
    by_cases last : f n = x
    · have pre : 0 < tally f n x := by
        by_cases end_ : k = n
        · exact tally_pos.mpr ⟨l,by omega,again⟩
        · exact tally_pos.mpr ⟨k,by omega,hit⟩
      rw [if_pos last]
      omega
    have inner : k ≠ n ∧ l ≠ n := ⟨fun eq => last (eq ▸ hit),fun eq => last (eq ▸ again)⟩
    have pre := ih (by omega) (by omega)
    omega

lemma tally_set (inside : slot < n) (rest : ∀ k ≠ slot, g k = f k) :
    tally g n x+(if f slot = x then 1 else 0) = tally f n x+if g slot = x then 1 else 0 := by
  induction n with
  | zero => cases inside
  | succ n ih =>
    rw [tally_succ,tally_succ]
    by_cases last : slot = n
    · subst last
      rw [tally_congr fun k lt => rest k (ne_of_lt lt)]
      omega
    have pre := ih (by omega)
    rw [rest n fun eq => last eq.symm]
    omega
end ToyOS.Tally
