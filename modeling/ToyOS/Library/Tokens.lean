import Mathlib

namespace ToyOS.Tokens
open Function Option

-- Threads that take turns on a token or wait in a queue. Where a thread is in its program says which.
variable {Thread Pc : Type} [DecidableEq Thread] {owns waits : Pc → Bool} {token : Option Thread}
  {queue rest : List Thread} {pc : Thread → Pc} {p q : Thread} {now : Pc}

def Held (owns : Pc → Bool) (token : Option Thread) (pc : Thread → Pc) : Prop :=
  ∀ p, token = some p ↔ owns (pc p) = true

section
omit [DecidableEq Thread]

lemma Held.unique (held : Held owns token pc) (one : owns (pc p)) (two : owns (pc q)) : p = q :=
  some.inj (((held p).mpr one).symm.trans ((held q).mpr two))

lemma Held.free (held : Held owns none pc) (p : Thread) : owns (pc p) = false := by
  rw [←Bool.not_eq_true,←held p]
  exact (some_ne_none p).symm

lemma Held.congr {pc' : Thread → Pc} (held : Held owns token pc) (eq : ∀ q, owns (pc' q) = owns (pc q)) :
    Held owns token pc' := by
  intro q
  rw [eq q]
  exact held q

end

lemma Held.keep (held : Held owns token pc) (eq : owns now = owns (pc p)) : Held owns token (update pc p now) := by
  intro q
  rcases eq_or_ne q p with rfl | ne
  · rw [update_self,eq]
    exact held q
  rw [update_of_ne ne]
  exact held q

lemma Held.take (held : Held owns none pc) (gets : owns now) : Held owns (some p) (update pc p now) := by
  intro q
  rcases eq_or_ne q p with rfl | ne
  · rw [update_self]
    exact iff_of_true rfl gets
  rw [update_of_ne ne,held.free q]
  exact iff_of_false (fun eq => ne (some.inj eq).symm) Bool.false_ne_true

lemma Held.drop (held : Held owns (some p) pc) (leaves : owns now = false) : Held owns none (update pc p now) := by
  intro q
  refine iff_of_false (some_ne_none q).symm ?_
  rcases eq_or_ne q p with rfl | ne
  · rw [update_self,leaves]
    exact Bool.false_ne_true
  rw [update_of_ne ne,←held q]
  exact fun eq => ne (some.inj eq).symm

structure Queued (waits : Pc → Bool) (queue : List Thread) (pc : Thread → Pc) : Prop where
  nodup : queue.Nodup
  mem : ∀ p, p ∈ queue ↔ waits (pc p) = true

lemma Queued.keep (queued : Queued waits queue pc) (eq : waits now = waits (pc p)) :
    Queued waits queue (update pc p now) := by
  refine ⟨queued.nodup,fun q => ?_⟩
  rcases eq_or_ne q p with rfl | ne
  · rw [update_self,eq]
    exact queued.mem q
  rw [update_of_ne ne]
  exact queued.mem q

lemma Queued.join (queued : Queued waits queue pc) (out : waits (pc p) = false) (joins : waits now) :
    Queued waits (queue++[p]) (update pc p now) := by
  have miss : p ∉ queue := by
    rw [queued.mem p,out]
    exact Bool.false_ne_true
  refine ⟨List.nodup_append.mpr ⟨queued.nodup,List.nodup_singleton p,?_⟩,fun q => ?_⟩
  · rintro a one b two rfl
    rw [List.mem_singleton.mp two] at one
    exact miss one
  rw [List.mem_append,List.mem_singleton]
  rcases eq_or_ne q p with rfl | ne
  · rw [update_self]
    exact iff_of_true (.inr rfl) joins
  rw [update_of_ne ne,←queued.mem q]
  exact or_iff_left ne

lemma Queued.leave (queued : Queued waits (p :: rest) pc) (leaves : waits now = false) :
    Queued waits rest (update pc p now) := by
  obtain ⟨miss,nodup⟩ := List.nodup_cons.mp queued.nodup
  refine ⟨nodup,fun q => ?_⟩
  rcases eq_or_ne q p with rfl | ne
  · rw [update_self,leaves]
    exact iff_of_false miss Bool.false_ne_true
  rw [update_of_ne ne,←queued.mem q,List.mem_cons]
  exact (or_iff_right ne).symm

def Claims (claimed : Pc → Bool) (wakes : Pc → Thread → Prop) (pc : Thread → Pc) : Prop :=
  ∀ t, claimed (pc t) = true ↔ ∃ p, wakes (pc p) t

variable {claimed sleeps helps : Pc → Bool} {wakes : Pc → Thread → Prop} {target : Thread} {handed : Pc} {n : Nat}

lemma Claims.move (claims : Claims claimed wakes pc) (eq : wakes now = wakes (pc p)) (old : claimed (pc p) = false)
    (new : claimed now = false) : Claims claimed wakes (update pc p now) := by
  intro t
  have kept : ∀ q, wakes (update pc p now q) = wakes (pc q) :=
    (forall_update_iff pc fun q here => wakes here = wakes (pc q)).mpr ⟨eq,fun _ _ => rfl⟩
  simp only [kept]
  rw [←claims t]
  by_cases self : t = p
  · subst self
    simp [old,new]
  · simp [self]

omit [DecidableEq Thread] in
lemma Claims.by_owner (claims : Claims claimed wakes pc) (held : Held owns token pc)
    (owner : ∀ now q, wakes now q → owns now) (mine : owns (pc p)) (did : claimed (pc q)) : wakes (pc p) q := by
  obtain ⟨waker,waking⟩ := (claims q).mp did
  have eq := held.unique (owner _ q waking) mine
  rwa [eq] at waking

lemma Claims.hand (claims : Claims claimed wakes pc) (held : Held owns token pc)
    (owner : ∀ now q, wakes now q → owns now) (mine : owns (pc p)) (apart : target ≠ p)
    (quiet : ∀ q, ¬wakes handed q) (old : claimed (pc p) = false) (new : claimed now = false)
    (claim : ∀ q, wakes now q ↔ if q = target then claimed handed = true else wakes (pc p) q) :
    Claims claimed wakes (update (update pc target handed) p now) := by
  intro q
  have right : (∃ waker, wakes (update (update pc target handed) p now waker) q) ↔ wakes now q := by
    constructor
    · intro ⟨waker,waking⟩
      by_cases self : waker = p
      · subst self
        simpa using waking
      by_cases here : waker = target
      · subst here
        simp [self,quiet] at waking
      simp only [update_of_ne self,update_of_ne here] at waking
      exact absurd (held.unique (owner _ q waking) mine) self
    intro waking
    exact ⟨p,by simpa using waking⟩
  rw [right,claim q]
  by_cases here : q = target
  · subst here
    simp [apart]
  rw [if_neg here]
  by_cases self : q = p
  · subst self
    rw [update_self,new]
    refine iff_of_false Bool.false_ne_true fun waking => ?_
    have did := (claims q).mpr ⟨q,waking⟩
    rw [old] at did
    cases did
  rw [update_of_ne self,update_of_ne here]
  constructor
  · exact claims.by_owner held owner mine
  intro waking
  exact (claims q).mpr ⟨p,waking⟩

def moveAll (pc : Thread → Pc) (moved : List Thread) (now : Pc) : Thread → Pc :=
  fun q => if q ∈ moved then now else pc q

lemma moveAll_member (mem : q ∈ moved) : moveAll pc moved now q = now := if_pos mem
lemma moveAll_other (out : q ∉ moved) : moveAll pc moved now q = pc q := if_neg out

lemma Held.keepAll (held : Held owns token pc) (eq : ∀ q ∈ moved, owns now = owns (pc q)) :
    Held owns token (moveAll pc moved now) := by
  intro q
  by_cases mem : q ∈ moved
  · rw [moveAll_member mem,eq q mem]
    exact held q
  rw [moveAll_other mem]
  exact held q

lemma Queued.leaveAll (queued : Queued waits (moved++rest) pc) (leaves : waits now = false) :
    Queued waits rest (moveAll pc moved now) := by
  obtain ⟨_,nodup,apart⟩ := List.nodup_append.mp queued.nodup
  refine ⟨nodup,fun q => ?_⟩
  by_cases mem : q ∈ moved
  · rw [moveAll_member mem,leaves]
    exact iff_of_false (fun also => apart q mem q also rfl) Bool.false_ne_true
  rw [moveAll_other mem,←queued.mem q,List.mem_append]
  exact (or_iff_right mem).symm

lemma Claims.takeAll (claims : Claims claimed wakes pc) (held : Held owns token pc)
    (owner : ∀ now q, wakes now q → owns now) (mine : owns (pc p)) (apart : p ∉ moved) (empty : ∀ q, ¬wakes (pc p) q)
    (quiet : ∀ q, ¬wakes handed q) (did : claimed handed) (new : claimed now = false)
    (claim : ∀ q, wakes now q ↔ q ∈ moved) : Claims claimed wakes (update (moveAll pc moved handed) p now) := by
  intro q
  have right : (∃ waker, wakes (update (moveAll pc moved handed) p now waker) q) ↔ q ∈ moved := by
    rw [←claim q]
    constructor
    · intro ⟨waker,waking⟩
      by_cases self : waker = p
      · subst self
        simpa using waking
      rw [update_of_ne self] at waking
      by_cases mem : waker ∈ moved
      · rw [moveAll_member mem] at waking
        exact absurd waking (quiet q)
      rw [moveAll_other mem] at waking
      exact absurd (held.unique (owner _ q waking) mine) self
    intro waking
    exact ⟨p,by simpa using waking⟩
  rw [right]
  by_cases self : q = p
  · rw [self,update_self,new]
    exact iff_of_false Bool.false_ne_true apart
  rw [update_of_ne self]
  by_cases mem : q ∈ moved
  · rw [moveAll_member mem]
    exact iff_of_true did mem
  rw [moveAll_other mem]
  exact iff_of_false (fun was => empty q (claims.by_owner held owner mine was)) mem

lemma forall_update {P : Pc → Prop} (all : ∀ q, P (pc q)) (new : P now) (q : Thread) : P (update pc p now q) := by
  by_cases self : q = p
  · rwa [self,update_self]
  · rw [update_of_ne self]
    exact all q

def Helped (sleeps helps : Pc → Bool) (n : Nat) (pc : Thread → Pc) : Prop :=
  (∃ p, sleeps (pc p) = true) → ∃ helpers : Finset Thread, (∀ q ∈ helpers, helps (pc q) = true) ∧ n ≤ helpers.card

omit [DecidableEq Thread] in
lemma helped_none : Helped sleeps helps 0 pc := fun _ => ⟨∅,by simp,Nat.zero_le _⟩

lemma slept (pre : sleeps now → sleeps (pc p)) (waiting : ∃ q, sleeps (update pc p now q)) : ∃ q, sleeps (pc q) := by
  rcases (exists_update_iff pc fun _ here => sleeps here).mp waiting with new | ⟨q,_,sleeper⟩
  · exact ⟨p,pre new⟩
  · exact ⟨q,sleeper⟩

lemma Helped.move (helped : Helped sleeps helps n pc) (pre : sleeps now → sleeps (pc p))
    (keeps : helps (pc p) → helps now) : Helped sleeps helps n (update pc p now) := by
  intro waiting
  obtain ⟨helpers,helping,enough⟩ := helped (slept pre waiting)
  refine ⟨helpers,?_,enough⟩
  intro q member
  by_cases self : q = p
  · subst self
    simpa using keeps (helping q member)
  · simpa [self] using helping q member

lemma Helped.less (helped : Helped sleeps helps (n+1) pc) (pre : sleeps now → sleeps (pc p)) :
    Helped sleeps helps n (update pc p now) := by
  intro waiting
  obtain ⟨helpers,helping,enough⟩ := helped (slept pre waiting)
  refine ⟨helpers.erase p,?_,?_⟩
  · intro q mem
    obtain ⟨ne,mem⟩ := Finset.mem_erase.mp mem
    simpa [ne] using helping q mem
  have := Finset.pred_card_le_card_erase (s := helpers) (a := p)
  omega

lemma Helped.more (helped : Helped sleeps helps n pc) (pre : sleeps now → sleeps (pc p))
    (idle : helps (pc p) = false) (joins : helps now) : Helped sleeps helps (n+1) (update pc p now) := by
  intro waiting
  obtain ⟨helpers,helping,enough⟩ := helped (slept pre waiting)
  have out : p ∉ helpers := by
    intro mem
    have did := helping p mem
    rw [idle] at did
    cases did
  refine ⟨insert p helpers,?_,?_⟩
  · intro q mem
    rcases Finset.mem_insert.mp mem with self | mem
    · subst self
      simpa using joins
    have ne : q ≠ p := fun self => out (self ▸ mem)
    simpa [ne] using helping q mem
  rw [Finset.card_insert_of_notMem out]
  omega

lemma Helped.hand (helped : Helped sleeps helps n pc) (apart : target ≠ p) (asleep : helps (pc target) = false)
    (wakes : helps handed) (handedSleeps : sleeps handed → sleeps (pc target)) (pre : sleeps now → sleeps (pc p)) :
    Helped sleeps helps n (update (update pc target handed) p now) := by
  have more := helped.more handedSleeps asleep wakes
  apply more.less
  rwa [update_of_ne apart.symm]
end ToyOS.Tokens
