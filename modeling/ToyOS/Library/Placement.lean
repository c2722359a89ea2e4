import ToyOS.Library.Tokens

namespace ToyOS.Placement
open Function Tokens Option

-- Items on lists, each on one list at most. `place` says on which.
variable {Item Place : Type} {lists : Place → List Item} {place : Item → Option Place}
  {source goal : Place} {x : Item} {rest stay go : List Item}

structure Located (lists : Place → List Item) (place : Item → Option Place) : Prop where
  nodup : ∀ l, (lists l).Nodup
  mem : ∀ l x, x ∈ lists l ↔ place x = some l

lemma Located.absent (located : Located lists place) (nowhere : place x = none) (l : Place) : x ∉ lists l := by
  intro member
  have somewhere := (located.mem l x).mp member
  simp [nowhere] at somewhere

lemma Located.unique (located : Located lists place) (one : x ∈ lists source) (two : x ∈ lists goal) : source = goal :=
  some.inj (((located.mem source x).mp one).symm.trans ((located.mem goal x).mp two))

lemma Located.empty (empty : ∀ l, lists l = []) : Located lists fun _ => none := by
  constructor
  · intro l
    simp [empty l]
  intro l x
  simp [empty l]

variable [DecidableEq Place]

lemma Located.reorder (located : Located lists place) (eq : (lists source).Perm rest) :
    Located (update lists source rest) place := by
  constructor
  · intro l
    by_cases here : l = source
    · simpa [here] using eq.nodup_iff.mp (located.nodup source)
    · simpa [here] using located.nodup l
  intro l x
  by_cases here : l = source
  · simpa [here,eq.mem_iff.symm] using located.mem source x
  · simpa [here] using located.mem l x

variable [DecidableEq Item]

section
variable (located : Located lists place)
include located

lemma Located.remhead (hit : lists source = x :: rest) : Located (update lists source rest) (update place x none) := by
  have nodup := located.nodup source
  rw [hit] at nodup
  obtain ⟨gone,left⟩ := List.nodup_cons.mp nodup
  have at_ : place x = some source := (located.mem source x).mp (by simp [hit])
  constructor
  · intro l
    by_cases here : l = source
    · simpa [here] using left
    · simpa [here] using located.nodup l
  intro l y
  by_cases here : l = source <;> by_cases eq : y = x
  · simpa [here,eq] using gone
  · have old := located.mem source y
    simpa [here,eq,hit] using old
  · have old := located.mem l x
    simpa [here,eq,at_,Ne.symm here] using old
  · simpa [here,eq] using located.mem l y

lemma Located.addtail (nowhere : place x = none) :
    Located (update lists goal (lists goal++[x])) (update place x (some goal)) := by
  have absent := located.absent nowhere
  constructor
  · intro l
    by_cases here : l = goal
    · subst here
      rw [update_self]
      refine List.nodup_append.mpr ⟨located.nodup l,List.nodup_singleton x,?_⟩
      intro a member b last eq
      rw [eq,List.mem_singleton.mp last] at member
      exact absent l member
    · simpa [here] using located.nodup l
  intro l y
  by_cases here : l = goal <;> by_cases eq : y = x
  · simp [here,eq]
  · simpa [here,eq] using located.mem goal y
  · simpa [here,eq,Ne.symm here] using absent l
  · simpa [here,eq] using located.mem l y

lemma Located.transfer (parts : (lists source).Perm (stay++go)) (differ : source ≠ goal) :
    Located (update (update lists source stay) goal (lists goal++go)) (moveAll place go (some goal)) := by
  have nodup := parts.nodup_iff.mp (located.nodup source)
  obtain ⟨stays,goes,apart⟩ := List.nodup_append.mp nodup
  have held : ∀ {y}, y ∈ stay ∨ y ∈ go ↔ place y = some source := by
    intro y
    simpa using (parts.mem_iff.symm.trans (located.mem source y))
  constructor
  · intro l
    by_cases target : l = goal
    · subst target
      rw [update_self]
      refine List.nodup_append.mpr ⟨located.nodup l,goes,?_⟩
      intro a first b second same
      subst same
      have here := (located.mem l a).mp first
      rw [held.mp (.inr second)] at here
      exact differ (some.inj here)
    by_cases origin : l = source
    · simpa [target,origin,differ] using stays
    · simpa [target,origin] using located.nodup l
  intro l y
  by_cases moved : y ∈ go
  · rw [moveAll_member moved]
    have was := held.mp (.inr moved)
    by_cases target : l = goal
    · simp [target,moved]
    by_cases origin : l = source
    · simpa [target,origin,differ,Ne.symm differ] using fun kept => apart y kept y moved rfl
    have old := located.mem l y
    simp [was,Ne.symm origin] at old
    simpa [target,origin,Ne.symm target] using old
  rw [moveAll_other moved]
  by_cases target : l = goal
  · simpa [target,moved] using located.mem goal y
  by_cases origin : l = source
  · have old := @held y
    simpa [target,origin,differ,moved] using old
  · simpa [target,origin] using located.mem l y

end
end ToyOS.Placement
