import ToyOS.Library.Tokens

namespace ToyOS.WaitChannel
open Function Tokens

-- Threads around a spinlock and a wait channel with a lock of its own. What a place in the program means is said once,
-- for all places. Only the owner of the spinlock takes threads off the channel.
structure Roles (Thread Pc : Type) where
  holdsSpin : Pc → Bool
  holdsChannel : Pc → Bool
  listed : Pc → Bool
  sleeps : Pc → Bool
  claimed : Pc → Bool
  wakes : Pc → Thread → Prop
  waker : ∀ now q, wakes now q → holdsSpin now = true
  sleeper : ∀ now, sleeps now = true → holdsChannel now = true ∨ listed now = true

structure Monitor {Thread Pc : Type} (r : Roles Thread Pc) (spin channel : Option Thread) (queue : List Thread)
    (pc : Thread → Pc) : Prop where
  spin : Held r.holdsSpin spin pc
  channel : Held r.holdsChannel channel pc
  queue : Queued r.listed queue pc
  claims : Claims r.claimed r.wakes pc

-- Neither the list nor the threads in hand change.
structure Roles.Quiet {Thread Pc : Type} (r : Roles Thread Pc) (was now : Pc) : Prop where
  listed : r.listed now = r.listed was
  wakes : r.wakes now = r.wakes was
  was_free : r.claimed was = false
  now_free : r.claimed now = false

variable {Thread Pc : Type} [DecidableEq Thread] {r : Roles Thread Pc} {spin channel : Option Thread}
  {queue rest : List Thread} {pc : Thread → Pc} {p target : Thread} {was here now handed : Pc}

lemma Monitor.goto (m : Monitor r spin channel queue pc) (at_ : pc p = was) (quiet : r.Quiet was now)
    (spins : r.holdsSpin now = r.holdsSpin was) (locks : r.holdsChannel now = r.holdsChannel was) :
    Monitor r spin channel queue (update pc p now) := by
  subst at_
  exact ⟨m.spin.keep spins,m.channel.keep locks,m.queue.keep quiet.listed,
    m.claims.move quiet.wakes quiet.was_free quiet.now_free⟩

lemma Monitor.acquire (m : Monitor r none channel queue pc) (at_ : pc p = was) (quiet : r.Quiet was now)
    (gets : r.holdsSpin now) (locks : r.holdsChannel now = r.holdsChannel was) :
    Monitor r (some p) channel queue (update pc p now) := by
  subst at_
  exact ⟨m.spin.take gets,m.channel.keep locks,m.queue.keep quiet.listed,
    m.claims.move quiet.wakes quiet.was_free quiet.now_free⟩

lemma Monitor.release (m : Monitor r (some p) channel queue pc) (at_ : pc p = was) (quiet : r.Quiet was now)
    (leaves : r.holdsSpin now = false) (locks : r.holdsChannel now = r.holdsChannel was) :
    Monitor r none channel queue (update pc p now) := by
  subst at_
  exact ⟨m.spin.drop leaves,m.channel.keep locks,m.queue.keep quiet.listed,
    m.claims.move quiet.wakes quiet.was_free quiet.now_free⟩

lemma Monitor.lock (m : Monitor r spin none queue pc) (at_ : pc p = was) (quiet : r.Quiet was now)
    (spins : r.holdsSpin now = r.holdsSpin was) (gets : r.holdsChannel now) :
    Monitor r spin (some p) queue (update pc p now) := by
  subst at_
  exact ⟨m.spin.keep spins,m.channel.take gets,m.queue.keep quiet.listed,
    m.claims.move quiet.wakes quiet.was_free quiet.now_free⟩

lemma Monitor.unlock (m : Monitor r spin (some p) queue pc) (at_ : pc p = was) (quiet : r.Quiet was now)
    (spins : r.holdsSpin now = r.holdsSpin was) (leaves : r.holdsChannel now = false) :
    Monitor r spin none queue (update pc p now) := by
  subst at_
  exact ⟨m.spin.keep spins,m.channel.drop leaves,m.queue.keep quiet.listed,
    m.claims.move quiet.wakes quiet.was_free quiet.now_free⟩

lemma Monitor.addtail (m : Monitor r spin channel queue pc) (at_ : pc p = was) (out : r.listed was = false)
    (joins : r.listed now) (wakes : r.wakes now = r.wakes was) (was_free : r.claimed was = false)
    (now_free : r.claimed now = false) (spins : r.holdsSpin now = r.holdsSpin was)
    (locks : r.holdsChannel now = r.holdsChannel was) : Monitor r spin channel (queue++[p]) (update pc p now) := by
  subst at_
  exact ⟨m.spin.keep spins,m.channel.keep locks,m.queue.join out joins,m.claims.move wakes was_free now_free⟩

omit [DecidableEq Thread] in
lemma Monitor.queued (m : Monitor r spin channel queue pc) (locks : r.holdsChannel (pc p))
    (out : r.listed (pc p) = false) (member : target ∈ queue) :
    r.listed (pc target) ∧ r.holdsChannel (pc target) = false ∧ target ≠ p := by
  have waits := (m.queue.mem target).mp member
  have apart : target ≠ p := by
    intro same
    rw [same,out] at waits
    cases waits
  refine ⟨waits,?_,apart⟩
  cases both : r.holdsChannel (pc target) with
  | false => rfl
  | true => exact absurd (m.channel.unique both locks) apart

omit [DecidableEq Thread] in
lemma Monitor.none_sleeps (m : Monitor r spin channel [] pc) (locks : r.holdsChannel (pc p))
    (awake : r.sleeps (pc p) = false) (q : Thread) : r.sleeps (pc q) ≠ true := by
  intro sleeping
  rcases r.sleeper _ sleeping with both | waits
  · rw [m.channel.unique both locks,awake] at sleeping
    cases sleeping
  have member := (m.queue.mem q).mpr waits
  cases member

lemma Monitor.hand (m : Monitor r spin channel queue pc) (targetAt : pc target = was) (at_ : pc p = here)
    (apart : target ≠ p) (mine : r.holdsSpin here) (listed : Queued r.listed rest (update pc target handed))
    (targetSpins : r.holdsSpin handed = r.holdsSpin was) (spins : r.holdsSpin now = r.holdsSpin here)
    (targetLocks : r.holdsChannel handed = r.holdsChannel was) (locks : r.holdsChannel now = r.holdsChannel here)
    (out : r.listed now = r.listed here) (quiet : ∀ q, ¬r.wakes handed q) (old : r.claimed here = false)
    (new : r.claimed now = false)
    (claim : ∀ q, r.wakes now q ↔ if q = target then r.claimed handed = true else r.wakes here q) :
    Monitor r spin channel rest (update (update pc target handed) p now) := by
  subst targetAt at_
  have still : update pc target handed p = pc p := update_of_ne apart.symm _ _
  refine ⟨(m.spin.keep targetSpins).keep ?_,(m.channel.keep targetLocks).keep ?_,listed.keep ?_,
    m.claims.hand m.spin r.waker mine apart quiet old new claim⟩
  · rw [still,spins]
  · rw [still,locks]
  · rw [still,out]
end ToyOS.WaitChannel
