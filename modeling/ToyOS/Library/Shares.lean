import Mathlib

namespace ToyOS.Shares
open Function

-- Things that are counted by their holders: `held x` is the number of the holders of `x`.
variable {κ : Type} [DecidableEq κ] {held : κ → Nat} {x y : κ} {l : List κ}

def more (held : κ → Nat) (x : κ) : κ → Nat := update held x (held x+1)
lemma more_self : more held x x = held x+1 := update_self ..
lemma more_of_ne (ne : y ≠ x) : more held x y = held y := update_of_ne ne ..

lemma more_apply : more held x y = held y+if y = x then 1 else 0 := by
  by_cases eq : y = x
  · rw [eq,more_self,if_pos rfl]
  · rw [more_of_ne eq,if_neg eq,Nat.add_zero]

lemma more_comm (held : κ → Nat) (x y : κ) : more (more held x) y = more (more held y) x := by
  funext z
  simp only [more_apply]
  omega

lemma more_comp {ι : Type} [DecidableEq ι] {name : ι → κ} (injective : Injective name) (i : ι) :
    (fun j => more held (name i) (name j)) = more (fun j => held (name j)) i := by
  funext j
  simp only [more_apply,injective.eq_iff]

def holds (l : List κ) : κ → Nat := fun x => l.count x

lemma holds_cons : holds (x :: l) = more (holds l) x := by
  funext y
  rw [more_apply,holds,holds,List.count_cons]
  simp only [beq_iff_eq,@eq_comm κ x y]

lemma holds_perm (eq : l.Perm l') : holds l = holds l' := funext fun x => eq.count_eq x
def standing (n : Nat) : Option Nat := if n = 0 then none else some n
lemma standing_zero : standing 0 = none := rfl
lemma standing_succ (n : Nat) : standing (n+1) = some (n+1) := rfl

lemma standing_eq_some : standing n = some m ↔ n = m ∧ 0 < m := by
  cases n with
  | zero =>
    rw [standing_zero]
    constructor
    · intro none_
      cases none_
    intro pos
    omega
  | succ n =>
    rw [standing_succ,Option.some.injEq]
    omega

lemma standing_eq_none : standing n = none ↔ n = 0 := by
  cases n with
  | zero => exact ⟨fun _ => rfl,fun _ => rfl⟩
  | succ n =>
    rw [standing_succ]
    constructor
    · intro none_
      cases none_
    intro zero
    cases zero
end ToyOS.Shares
