import Mathlib

namespace ToyOS.ByteMemory

-- A memory gives the byte at every address. Ranges have a common size.
variable {Byte : Type}

def Inside (size start a : Nat) : Prop := start ≤ a ∧ a < start+size

instance (size start a : Nat) : Decidable (Inside size start a) :=
  inferInstanceAs (Decidable (_ ∧ _))

def Apart (size left right : Nat) : Prop := left+size ≤ right ∨ right+size ≤ left
lemma Apart.symm (apart : Apart size left right) : Apart size right left := Or.symm apart

lemma Apart.outside (apart : Apart size left right) (inside : Inside size left a) : ¬ Inside size right a := by
  unfold Apart at apart
  unfold Inside at inside ⊢
  omega

lemma inside_offset (lt : offset < size) : Inside size start (start+offset) :=
  ⟨Nat.le_add_right _ _,Nat.add_lt_add_left lt _⟩

def splice (memory : Nat → Byte) (start n : Nat) (source : Nat → Byte) (first : Nat) : Nat → Byte :=
  fun a => if Inside n start a then source (first+(a-start)) else memory a

lemma splice_zero {memory source : Nat → Byte} : splice memory start 0 source first = memory :=
  funext fun a => if_neg fun inside => lt_irrefl a (lt_of_lt_of_le inside.2 inside.1)

lemma splice_congr {memory source other : Nat → Byte} (eq : ∀ j < n, source (one+j) = other (two+j)) :
    splice memory start n source one = splice memory start n other two := by
  funext a
  refine ite_congr rfl (fun inside => eq _ ?_) fun _ => rfl
  have := inside.2
  have := inside.1
  omega

lemma splice_splice {memory source : Nat → Byte} (m n : Nat) :
    splice (splice memory start m source first) (start+m) n source (first+m) =
      splice memory start (m+n) source first := by
  funext a
  unfold splice
  by_cases pre : a < start+m
  · rw [if_neg fun inside : Inside n (start+m) a => absurd inside.1 (not_le.mpr pre)]
    refine if_congr ?_ rfl rfl
    unfold Inside
    omega
  by_cases after : a < start+m+n
  · rw [if_pos ⟨Nat.le_of_not_lt pre,after⟩,if_pos (by unfold Inside; omega)]
    exact congrArg source (by omega)
  rw [if_neg fun inside : Inside n (start+m) a => after inside.2,if_neg fun inside : Inside m start a => pre inside.2,
    if_neg fun inside : Inside (m+n) start a => after (by have := inside.2; omega)]

def fillRange (size : Nat) (value : Byte) (memory : Nat → Byte) (start : Nat) : Nat → Byte :=
  fun a => if Inside size start a then value else memory a

def moveRange (size : Nat) (memory : Nat → Byte) (move : Nat × Nat) : Nat → Byte :=
  fun a => if Inside size move.1 a then memory (move.2+(a-move.1)) else memory a

def fillAll (size : Nat) (value : Byte) (starts : List Nat) (memory : Nat → Byte) : Nat → Byte :=
  starts.foldl (fillRange size value) memory

def moveAll (size : Nat) (moves : List (Nat × Nat)) (memory : Nat → Byte) : Nat → Byte :=
  moves.foldl (moveRange size) memory

section
variable (memory : Nat → Byte)
include memory

lemma fillAll_outside (out : ∀ start ∈ starts, ¬ Inside size start a) :
    fillAll size value starts memory a = memory a := by
  induction starts generalizing memory with
  | nil => rfl
  | cons start rest ih =>
    rw [List.forall_mem_cons] at out
    exact (ih _ out.2).trans (if_neg out.1)

lemma fillAll_inside (covered : ∃ start ∈ starts, Inside size start a) :
    fillAll size value starts memory a = value := by
  induction starts generalizing memory with
  | nil =>
    obtain ⟨start,among,_⟩ := covered
    cases among
  | cons one rest ih =>
    by_cases later : ∃ start ∈ rest, Inside size start a
    · exact ih _ later
    have here : Inside size one a := by
      obtain ⟨start,among,inside⟩ := covered
      rcases List.mem_cons.mp among with rfl | further
      · exact inside
      · exact absurd ⟨start,further,inside⟩ later
    have untouched : ∀ start ∈ rest, ¬ Inside size start a := fun start among inside => later ⟨start,among,inside⟩
    exact (fillAll_outside _ untouched).trans (if_pos here)

lemma moveAll_outside (out : ∀ move ∈ moves, ¬ Inside size move.1 a) : moveAll size moves memory a = memory a := by
  induction moves generalizing memory with
  | nil => rfl
  | cons move rest ih =>
    rw [List.forall_mem_cons] at out
    exact (ih _ out.2).trans (if_neg out.1)

lemma moveAll_inside (targets : moves.Pairwise fun x y => Apart size x.1 y.1)
    (sources : ∀ x ∈ moves, ∀ y ∈ moves, Apart size x.1 y.2) (mem : (target,source) ∈ moves) (lt : offset < size) :
    moveAll size moves memory (target+offset) = memory (source+offset) := by
  induction moves generalizing memory with
  | nil => cases mem
  | cons move rest ih =>
    rw [List.pairwise_cons] at targets
    rcases List.mem_cons.mp mem with rfl | later
    · -- no later move reaches the range written now
      have kept : ∀ other ∈ rest, ¬ Inside size other.1 (target+offset) := fun other among =>
        (targets.1 other among).outside (inside_offset lt)
      refine (moveAll_outside _ kept).trans ((if_pos (inside_offset lt)).trans ?_)
      simp only [Nat.add_sub_cancel_left]
    have untouched : ¬ Inside size move.1 (source+offset) :=
      (sources move List.mem_cons_self _ mem).symm.outside (inside_offset lt)
    refine (ih _ targets.2 ?_ later).trans (if_neg untouched)
    exact fun x one y two => sources x (List.mem_cons_of_mem _ one) y (List.mem_cons_of_mem _ two)

end

def chunk (memory : Nat → Byte) (first n : Nat) : List Byte := (List.range n).map fun k => memory (first+k)

lemma chunk_length {memory : Nat → Byte} : (chunk memory first n).length = n := by
  rw [chunk,List.length_map,List.length_range]

lemma chunk_getElem {memory : Nat → Byte} (lt : k < (chunk memory one n).length) :
    (chunk memory one n)[k] = memory (one+k) := by
  simp only [chunk,List.getElem_map,List.getElem_range]

lemma chunk_get {memory : Nat → Byte} (lt : k < n) : (chunk memory one n).getD k fill = memory (one+k) := by
  have inside : k < (chunk memory one n).length := by rwa [chunk_length]
  rw [List.getD_eq_getElem?_getD,List.getElem?_eq_getElem inside,Option.getD_some,chunk_getElem]

lemma chunk_splice {memory source : Nat → Byte} :
    chunk (splice memory start n source first) start n = chunk source first n := by
  refine List.map_congr_left fun k mem => ?_
  rw [splice,if_pos (inside_offset (List.mem_range.mp mem)),Nat.add_sub_cancel_left]

def overwrite (fill : Byte) (array : List Byte) (offset : Nat) (data : List Byte) : List Byte :=
  array.take offset++List.replicate (offset-array.length) fill++data++array.drop (offset+data.length)

lemma overwrite_length : (overwrite fill array offset data).length = max array.length (offset+data.length) := by
  simp only [overwrite,List.length_append,List.length_take,List.length_replicate,List.length_drop]
  omega

lemma overwrite_get : (overwrite fill array offset data).getD k fill =
      if Inside data.length offset k then data.getD (k-offset) fill else array.getD k fill := by
  have front : (array.take offset++List.replicate (offset-array.length) fill).length = offset := by
    simp only [List.length_append,List.length_take,List.length_replicate]
    omega
  simp only [List.getD_eq_getElem?_getD]
  unfold overwrite
  rcases Nat.lt_or_ge k offset with pre | past
  · rw [if_neg fun inside => absurd inside.1 (not_le.mpr pre),List.append_assoc,
      List.getElem?_append_left (by rw [front]; exact pre)]
    rcases Nat.lt_or_ge k array.length with inside | out
    · rw [List.getElem?_append_left (by rw [List.length_take]; omega),List.getElem?_take_of_lt pre]
    rw [List.getElem?_append_right (by rw [List.length_take]; omega),List.getElem?_eq_none out,List.getElem?_replicate]
    split
    · rfl
    · rfl
  rw [List.append_assoc,List.getElem?_append_right (by rw [front]; exact past),front]
  rcases Nat.lt_or_ge k (offset+data.length) with here | later
  · rw [if_pos ⟨past,here⟩,List.getElem?_append_left (by omega)]
  rw [if_neg fun inside => absurd inside.2 (not_lt.mpr later),List.getElem?_append_right (by omega),List.getElem?_drop]
  congr 2
  omega
end ToyOS.ByteMemory
