import Mathlib

namespace ToyOS.Census
open Function

-- How many threads are at a place that counts.
variable {Thread Pc : Type} [Fintype Thread] {counts : Thread → Pc → Bool} {pc pc' : Thread → Pc} {p : Thread}
    {now : Pc}

def census (counts : Thread → Pc → Bool) (pc : Thread → Pc) : Nat :=
  (Finset.univ.filter fun t => counts t (pc t) = true).card

lemma census_congr (same : ∀ t, counts t (pc' t) = counts t (pc t)) : census counts pc' = census counts pc := by
  unfold census
  simp only [same]

lemma census_pos : 0 < census counts pc ↔ ∃ t, counts t (pc t) := by
  simp [census,Finset.card_pos,Finset.Nonempty]

lemma census_zero : census counts pc = 0 ↔ ∀ t, counts t (pc t) = false := by
  simp [census,Finset.card_eq_zero,Finset.filter_eq_empty_iff]

variable [DecidableEq Thread]

lemma census_update : census counts (update pc p now)+(if counts p (pc p) = true then 1 else 0) =
    census counts pc+if counts p now = true then 1 else 0 := by
  have rest : ∀ f : Thread → Pc, (Finset.univ.filter fun t => counts t (f t)).card =
      ((Finset.univ.erase p).filter fun t => counts t (f t)).card+if counts p (f p) = true then 1 else 0 := by
    intro f
    simp only [Finset.card_filter]
    exact (Finset.sum_erase_add _ _ (Finset.mem_univ p)).symm
  have same : (Finset.univ.erase p).filter (fun t => counts t (update pc p now t)) =
      (Finset.univ.erase p).filter fun t => counts t (pc t) := by
    apply Finset.filter_congr
    intro t member
    rw [update_of_ne (Finset.ne_of_mem_erase member)]
  unfold census
  rw [rest,rest pc,same,update_self]
  omega

lemma census_keep (same : counts p now = counts p (pc p)) : census counts (update pc p now) = census counts pc := by
  apply census_congr
  intro t
  by_cases self : t = p
  · simpa [self] using same
  · simp [self]

lemma census_join (pre : counts p (pc p) = false) (joins : counts p now) :
    census counts (update pc p now) = census counts pc+1 := by
  have change := @census_update Thread Pc _ counts pc p now _
  simpa [pre,joins] using change

lemma census_leave (pre : counts p (pc p)) (leaves : counts p now = false) :
    census counts (update pc p now)+1 = census counts pc := by
  have change := @census_update Thread Pc _ counts pc p now _
  simpa [pre,leaves] using change
end ToyOS.Census
