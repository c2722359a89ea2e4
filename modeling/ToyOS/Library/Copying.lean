import ToyOS.Library.ByteMemory

namespace ToyOS.ByteMemory

-- The bytes at `source 0`, `source 1`, … up to `n` have come to `target 0`, `target 1`, …
structure Copied {Byte : Type} (target source : Nat → Nat) (n : Nat) (memory after : Nat → Byte) : Prop where
  moved : ∀ k, k < n → after (target k) = memory (source k)
  others : ∀ a, (∀ k, k < n → a ≠ target k) → after a = memory a

variable {Byte : Type} {target source : Nat → Nat} {memory middle after : Nat → Byte}

lemma copied_zero : Copied target source 0 memory memory := ⟨fun _ none => by omega,fun _ _ => rfl⟩

lemma copied_splice (left : ∀ k < n, target k = start+k) (right : ∀ k < n, source k = first+k) :
    Copied target source n memory (splice memory start n memory first) where
  moved k below := by rw [left k below,right k below,splice,if_pos (inside_offset below),Nat.add_sub_cancel_left]
  others a outside := if_neg fun inside => by
    obtain ⟨low,high⟩ := inside
    have here := left (a-start) (by omega)
    exact outside (a-start) (by omega) (by omega)

lemma Copied.unique (one : Copied target source n memory after) (two : Copied target source n memory middle) :
    after = middle := funext fun a => by
  by_cases hit : ∃ k < n, a = target k
  · obtain ⟨k,lt,rfl⟩ := hit
    rw [one.moved k lt,two.moved k lt]
  have missed k (lt : k < n) : a ≠ target k := fun eq => hit ⟨k,lt,eq⟩
  rw [one.others a missed,two.others a missed]

-- The second part reads nothing the first has written and leaves what it has written.
lemma Copied.append (one : Copied target source m memory middle)
    (two : Copied (fun k => target (m+k)) (fun k => source (m+k)) n middle after)
    (apart : ∀ j k, j < m+n → k < m+n → target j ≠ source k)
    (once : ∀ j k, j < m+n → k < m+n → target j = target k → j = k) : Copied target source (m+n) memory after where
  moved k below := by
    by_cases early : k < m
    · rw [two.others _ fun j lt eq => ?_,one.moved k early]
      have := once _ _ below (by omega) eq
      omega
    have late := two.moved (k-m) (by omega)
    rw [show m+(k-m) = k by omega] at late
    exact late.trans (one.others _ fun j lt eq => apart j k (by omega) below eq.symm)
  others a outside := by
    rw [two.others a fun k below => outside _ (by omega),one.others a fun k below => outside k (by omega)]
end ToyOS.ByteMemory
