import ToyOS.Library.WaitChannel
import ToyOS.Library.Transition

namespace ToyOS.Semaphore
open Function Tokens WaitChannel Transition Option

-- Where a thread is in P and V of one semaphore, by its next operation on the count, the spinlock or the wait channel.
inductive Pc (Thread : Type) where
  | idle
  -- P: spinlock_acquire, also again after wchan_sleep
  | contend
  | woken
  -- while (sem->sem_count == 0)
  | testing
  -- wchan_lock, spinlock_release
  | locking
  | unlocking
  -- wchan_sleep: threadlist_addtail, wchan_unlock
  | sleeping
  | switching
  | asleep
  -- taken off the channel and not yet runnable
  | claimed
  -- sem->sem_count--
  | decrementing
  -- V: spinlock_acquire, sem->sem_count++
  | posting
  | incrementing
  -- wchan_wakeone: spinlock_acquire, threadlist_remhead, spinlock_release, thread_make_runnable
  | waking
  | taking
  | taken (target : Option Thread)
  | running (target : Option Thread)
  -- the spinlock_release at the end of P and of V
  | leaving
  deriving DecidableEq

-- `increments` and `decrements` are what V and P have done to the count so far.
structure System (Thread : Type) where
  semCount : Int
  semLock : Option Thread
  wcLock : Option Thread
  wcThreads : List Thread
  pc : Thread → Pc Thread
  increments : Nat
  decrements : Nat

inductive Event (Thread : Type) where
  | P (p : Thread)
  | V (p : Thread)
  | run (p : Thread)

def int (c : Int) : Int := Int.bmod c (2^32)

variable {Thread : Type} [DecidableEq Thread]

def created (initialCount : Nat) : System Thread := ⟨initialCount,none,none,[],fun _ => .idle,0,0⟩
def System.goto (s : System Thread) (p : Thread) (pc : Pc Thread) : System Thread := {s with pc := update s.pc p pc}

def spinlockAcquire (s : System Thread) (p : Thread) (pc : Pc Thread) : Option (System Thread) :=
  if s.semLock = none then some {s.goto p pc with semLock := some p} else none

def spinlockRelease (s : System Thread) (p : Thread) (pc : Pc Thread) : Option (System Thread) :=
  if s.semLock = some p then some {s.goto p pc with semLock := none} else none

def wchanLock (s : System Thread) (p : Thread) (pc : Pc Thread) : Option (System Thread) :=
  if s.wcLock = none then some {s.goto p pc with wcLock := some p} else none

def wchanUnlock (s : System Thread) (p : Thread) (pc : Pc Thread) : Option (System Thread) :=
  if s.wcLock = some p then some {s.goto p pc with wcLock := none} else none

def takeHead (s : System Thread) (p : Thread) : System Thread :=
  match s.wcThreads with
  | [] => s.goto p (.taken none)
  | target :: rest => {(s.goto target .claimed).goto p (.taken (some target)) with wcThreads := rest}

def makeRunnable (s : System Thread) : Option Thread → System Thread
  | none => s
  | some target => s.goto target .woken

def decrement (s : System Thread) (p : Thread) : Option (System Thread) :=
  if 0 < s.semCount then
    some {s.goto p .leaving with semCount := int (s.semCount-1),decrements := s.decrements+1}
  else none

def increment (s : System Thread) (p : Thread) : Option (System Thread) :=
  if 0 < int (s.semCount+1) then
    some {s.goto p .waking with semCount := int (s.semCount+1),increments := s.increments+1}
  else none

def next (s : System Thread) (p : Thread) : Option (System Thread) :=
  match s.pc p with
  | .contend | .woken => spinlockAcquire s p .testing
  | .testing => some (s.goto p (if s.semCount = 0 then .locking else .decrementing))
  | .locking => wchanLock s p .unlocking
  | .unlocking => spinlockRelease s p .sleeping
  | .sleeping => some {s.goto p .switching with wcThreads := s.wcThreads++[p]}
  | .switching => wchanUnlock s p .asleep
  | .decrementing => decrement s p
  | .posting => spinlockAcquire s p .incrementing
  | .incrementing => increment s p
  | .waking => wchanLock s p .taking
  | .taking => some (takeHead s p)
  | .taken target => wchanUnlock s p (.running target)
  | .running target => some ((makeRunnable s target).goto p .leaving)
  | .leaving => spinlockRelease s p .idle
  | .idle | .asleep | .claimed => none

def step (s : System Thread) : Event Thread → Option (System Thread)
  | .P p => if s.pc p = .idle then some (s.goto p .contend) else none
  | .V p => if s.pc p = .idle then some (s.goto p .posting) else none
  | .run p => next s p

section
omit [DecidableEq Thread]

@[simp] def holdsSpin : Pc Thread → Bool
  | .testing | .locking | .unlocking | .decrementing | .incrementing | .waking | .taking | .taken _ | .running _
  | .leaving => true
  | _ => false

@[simp] def holdsChannel : Pc Thread → Bool
  | .unlocking | .sleeping | .switching | .taking | .taken _ => true
  | _ => false

@[simp] def listed : Pc Thread → Bool
  | .switching | .asleep => true
  | _ => false

@[simp] def sleeps : Pc Thread → Bool
  | .sleeping | .switching | .asleep => true
  | _ => false

@[simp] def helps : Pc Thread → Bool
  | .contend | .woken | .testing | .decrementing | .claimed | .waking | .taking => true
  | _ => false

@[simp] def denied : Pc Thread → Bool
  | .locking | .unlocking => true
  | _ => false

@[simp] def isClaimed : Pc Thread → Bool
  | .claimed => true
  | _ => false

@[simp] def wakes : Pc Thread → Option Thread
  | .taken target | .running target => target
  | _ => none

end

def roles : Roles Thread (Pc Thread) where
  holdsSpin := holdsSpin
  holdsChannel := holdsChannel
  listed := listed
  sleeps := sleeps
  claimed := isClaimed
  wakes now q := wakes now = some q
  waker now q waking := by cases now <;> first | rfl | cases waking
  sleeper now sleeping := by cases now <;> simp_all

-- `found` is KASSERT(sem->sem_count > 0) of P, where the loop has seen that it is not zero.
structure Lawful (n : Nat) (s : System Thread) : Prop where
  monitor : Monitor roles s.semLock s.wcLock s.wcThreads s.pc
  nonneg : 0 ≤ s.semCount
  word : s.semCount < 2^31
  balance : s.semCount = n+s.increments-s.decrements
  refused : ∀ p, denied (s.pc p) = true → s.semCount = 0
  found : ∀ p, s.pc p = .decrementing → s.semCount ≠ 0
  helped : Helped sleeps helps s.semCount.toNat s.pc

variable {s t : System Thread} {p q : Thread} {was now : Pc Thread} {n : Nat}

omit [DecidableEq Thread] in
lemma created_lawful (lt : n < 2^31) : Lawful n (created n : System Thread) := by
  refine ⟨⟨fun p => ?_,fun p => ?_,⟨List.nodup_nil,fun p => ?_⟩,fun t => ?_⟩,?_,?_,?_,fun p => ?_,
    fun p => ?_,fun waiting => ?_⟩
  all_goals simp_all [created,roles]

-- A move that leaves the count as it is.
structure Moves (count : Int) (was now : Pc Thread) : Prop where
  refused : denied now = true → count = 0
  found : now = .decrementing → count ≠ 0
  sleeps : sleeps now = true → sleeps was = true ∨ count = 0
  helps : helps was = true → helps now = true ∨ count = 0

section
variable (lawful : Lawful n s)
include lawful

lemma Lawful.moved (at_ : s.pc p = was) (moves : Moves s.semCount was now)
    (monitor : Monitor roles semLock wcLock wcThreads (update s.pc p now)) :
    Lawful n ⟨s.semCount,semLock,wcLock,wcThreads,update s.pc p now,s.increments,s.decrements⟩ := by
  subst at_
  refine ⟨monitor,lawful.nonneg,lawful.word,lawful.balance,?_,?_,?_⟩
  · exact (forall_update_iff s.pc fun _ pc => denied pc → s.semCount = 0).mpr
      ⟨moves.refused,fun q _ => lawful.refused q⟩
  · exact (forall_update_iff s.pc fun _ pc => pc = .decrementing → s.semCount ≠ 0).mpr
      ⟨moves.found,fun q _ => lawful.found q⟩
  by_cases none_ : s.semCount = 0
  · change Helped _ _ s.semCount.toNat _
    rw [none_]
    exact helped_none
  apply lawful.helped.move
  · exact fun asleep => (moves.sleeps asleep).resolve_right none_
  · exact fun helping => (moves.helps helping).resolve_right none_

lemma Lawful.goto (at_ : s.pc p = was) (moves : Moves s.semCount was now) (quiet : roles.Quiet was now)
    (spins : holdsSpin now = holdsSpin was) (locks : holdsChannel now = holdsChannel was) : Lawful n (s.goto p now) :=
  lawful.moved at_ moves (lawful.monitor.goto at_ quiet spins locks)

lemma Lawful.spinlockAcquire (did : spinlockAcquire s p now = some t) (at_ : s.pc p = was)
    (moves : Moves s.semCount was now) (quiet : roles.Quiet was now) (gets : holdsSpin now)
    (locks : holdsChannel now = holdsChannel was) : Lawful n t := by
  simp only [Semaphore.spinlockAcquire,ite_none_right_eq_some,some.injEq] at did
  obtain ⟨free,rfl⟩ := did
  have monitor := lawful.monitor
  rw [free] at monitor
  exact lawful.moved at_ moves (monitor.acquire at_ quiet gets locks)

lemma Lawful.spinlockRelease (did : spinlockRelease s p now = some t) (at_ : s.pc p = was)
    (moves : Moves s.semCount was now) (quiet : roles.Quiet was now) (leaves : holdsSpin now = false)
    (locks : holdsChannel now = holdsChannel was) : Lawful n t := by
  simp only [Semaphore.spinlockRelease,ite_none_right_eq_some,some.injEq] at did
  obtain ⟨mine,rfl⟩ := did
  have monitor := lawful.monitor
  rw [mine] at monitor
  exact lawful.moved at_ moves (monitor.release at_ quiet leaves locks)

lemma Lawful.wchanLock (did : wchanLock s p now = some t) (at_ : s.pc p = was) (moves : Moves s.semCount was now)
    (quiet : roles.Quiet was now) (spins : holdsSpin now = holdsSpin was) (gets : holdsChannel now) : Lawful n t := by
  simp only [Semaphore.wchanLock,ite_none_right_eq_some,some.injEq] at did
  obtain ⟨free,rfl⟩ := did
  have monitor := lawful.monitor
  rw [free] at monitor
  exact lawful.moved at_ moves (monitor.lock at_ quiet spins gets)

lemma Lawful.wchanUnlock (did : wchanUnlock s p now = some t) (at_ : s.pc p = was)
    (moves : Moves s.semCount was now) (quiet : roles.Quiet was now) (spins : holdsSpin now = holdsSpin was)
    (leaves : holdsChannel now = false) : Lawful n t := by
  simp only [Semaphore.wchanUnlock,ite_none_right_eq_some,some.injEq] at did
  obtain ⟨mine,rfl⟩ := did
  have monitor := lawful.monitor
  rw [mine] at monitor
  exact lawful.moved at_ moves (monitor.unlock at_ quiet spins leaves)

lemma Lawful.addtail (at_ : s.pc p = .sleeping) :
    Lawful n {s.goto p .switching with wcThreads := s.wcThreads++[p]} := by
  apply lawful.moved at_
  · constructor <;> simp
  · exact lawful.monitor.addtail at_ rfl rfl rfl rfl rfl rfl rfl

end

lemma int_eq (low : 0 ≤ c) (high : c < 2^31) : int c = c := by
  rw [int,Int.bmod_eq_of_le_mul_two]
  · omega
  · omega

omit [DecidableEq Thread] in
lemma Lawful.alone (lawful : Lawful n s) (mine : holdsSpin (s.pc p)) (ne : q ≠ p) :
    denied (s.pc q) ≠ true ∧ s.pc q ≠ .decrementing := by
  have out : holdsSpin (s.pc q) ≠ true := fun both => ne (lawful.monitor.spin.unique both mine)
  cases hit : s.pc q <;> simp_all

lemma Lawful.decrement (lawful : Lawful n s) (at_ : s.pc p = .decrementing) (did : decrement s p = some t) :
    Lawful n t := by
  simp only [Semaphore.decrement,ite_none_right_eq_some,some.injEq] at did
  obtain ⟨pos,rfl⟩ := did
  have mine : holdsSpin (s.pc p) := by simp [at_]
  have low := lawful.nonneg
  have high := lawful.word
  have balance := lawful.balance
  have less : int (s.semCount-1) = s.semCount-1 := int_eq (by omega) (by omega)
  rw [less]
  refine ⟨lawful.monitor.goto at_ ⟨rfl,rfl,rfl,rfl⟩ rfl rfl,?_,?_,?_,?_,?_,?_⟩
  · change 0 ≤ s.semCount-1
    omega
  · change s.semCount-1 < 2^31
    omega
  · change s.semCount-1 = n+s.increments-(s.decrements+1 : Nat)
    omega
  · refine (forall_update_iff s.pc fun _ pc => denied pc → s.semCount-1 = 0).mpr ⟨by simp,fun q other => ?_⟩
    exact fun blocked => absurd blocked (lawful.alone mine other).1
  · refine (forall_update_iff s.pc fun _ pc => pc = .decrementing → s.semCount-1 ≠ 0).mpr ⟨by simp,fun q other => ?_⟩
    exact fun testing => absurd testing (lawful.alone mine other).2
  have units : s.semCount.toNat = (s.semCount-1).toNat+1 := by omega
  have helped := lawful.helped
  rw [units] at helped
  apply helped.less
  simp

lemma Lawful.increment (lawful : Lawful n s) (at_ : s.pc p = .incrementing) (did : increment s p = some t) :
    Lawful n t := by
  simp only [Semaphore.increment,ite_none_right_eq_some,some.injEq] at did
  obtain ⟨pos,rfl⟩ := did
  have mine : holdsSpin (s.pc p) := by simp [at_]
  have low := lawful.nonneg
  have high := lawful.word
  have balance := lawful.balance
  -- the largest int would have become the smallest one
  have room : s.semCount+1 < 2^31 := by
    by_contra full
    have last : s.semCount = 2^31-1 := by omega
    rw [last] at pos
    exact absurd pos (by decide)
  rw [int_eq (by omega) room]
  refine ⟨lawful.monitor.goto at_ ⟨rfl,rfl,rfl,rfl⟩ rfl rfl,?_,room,?_,?_,?_,?_⟩
  · change 0 ≤ s.semCount+1
    omega
  · change s.semCount+1 = n+(s.increments+1 : Nat)-s.decrements
    omega
  · refine (forall_update_iff s.pc fun _ pc => denied pc → s.semCount+1 = 0).mpr ⟨by simp,fun q other => ?_⟩
    exact fun blocked => absurd blocked (lawful.alone mine other).1
  · refine (forall_update_iff s.pc fun _ pc => pc = .decrementing → s.semCount+1 ≠ 0).mpr ⟨by simp,fun q other => ?_⟩
    exact fun testing => absurd testing (lawful.alone mine other).2
  have units : (s.semCount+1).toNat = s.semCount.toNat+1 := by omega
  change Helped _ _ (s.semCount+1).toNat _
  rw [units]
  apply lawful.helped.more
  · simp
  · simp [at_]
  · rfl

omit [DecidableEq Thread] in
lemma asleep_of (waits : listed was) (unlocked : holdsChannel was = false) : was = .asleep := by
  cases was <;> simp_all

section
variable (lawful : Lawful n s)
include lawful

lemma Lawful.handed {target : Thread} {handed : Pc Thread} {rest : List Thread}
    (monitor : Monitor roles s.semLock s.wcLock rest (update (update s.pc target handed) p now))
    (targetOut : denied handed ≠ true ∧ handed ≠ .decrementing) (out : denied now ≠ true ∧ now ≠ .decrementing)
    (helped : Helped sleeps helps s.semCount.toNat (update (update s.pc target handed) p now)) :
    Lawful n ⟨s.semCount,s.semLock,s.wcLock,rest,update (update s.pc target handed) p now,
      s.increments,s.decrements⟩ := by
  refine ⟨monitor,lawful.nonneg,lawful.word,lawful.balance,?_,?_,helped⟩
  · apply forall_update (P := fun pc => denied pc → s.semCount = 0)
    · exact forall_update (P := fun pc => denied pc → s.semCount = 0) lawful.refused fun bad => absurd bad targetOut.1
    · exact fun bad => absurd bad out.1
  apply forall_update (P := fun pc : Pc Thread => pc = .decrementing → s.semCount ≠ 0)
  · exact forall_update (P := fun pc : Pc Thread => pc = .decrementing → s.semCount ≠ 0) lawful.found
      fun bad => absurd bad targetOut.2
  · exact fun bad => absurd bad out.2

lemma Lawful.takeHead (at_ : s.pc p = .taking) : Lawful n (takeHead s p) := by
  have locks : holdsChannel (s.pc p) := by simp [at_]
  have monitor := lawful.monitor
  unfold Semaphore.takeHead
  cases queued : s.wcThreads with
  | nil =>
    rw [queued] at monitor
    have nobody := monitor.none_sleeps locks (by simp [roles,at_])
    refine ⟨lawful.monitor.goto at_ ⟨rfl,rfl,rfl,rfl⟩ rfl rfl,lawful.nonneg,lawful.word,lawful.balance,?_,?_,?_⟩
    · exact (forall_update_iff s.pc fun _ pc => denied pc → s.semCount = 0).mpr ⟨by simp,fun q _ => lawful.refused q⟩
    · exact (forall_update_iff s.pc fun _ pc => pc = .decrementing → s.semCount ≠ 0).mpr
        ⟨by simp,fun q _ => lawful.found q⟩
    intro waiting
    rcases (exists_update_iff s.pc fun _ pc => sleeps pc).mp waiting with no | ⟨q,_,sleeping⟩
    · cases no
    · exact absurd sleeping (nobody q)
  | cons target rest =>
    rw [queued] at monitor
    obtain ⟨waits,unlocked,apart⟩ := monitor.queued locks (by simp [roles,at_]) List.mem_cons_self
    have sleeper : s.pc target = .asleep := asleep_of waits unlocked
    have claim : ∀ q, wakes (.taken (some target)) = some q ↔
        if q = target then isClaimed (.claimed : Pc Thread) = true else wakes (.taking : Pc Thread) = some q := by
      intro q
      by_cases here : q = target
      · simp [here]
      · simp [here,Ne.symm here]
    apply lawful.handed
    · exact monitor.hand sleeper at_ apart rfl (monitor.queue.leave rfl) rfl rfl rfl rfl rfl (by simp [roles]) rfl rfl
        claim
    · simp
    · simp
    · exact lawful.helped.hand apart (by simp [sleeper]) rfl (by simp) (by simp)

lemma Lawful.makeRunnable {target : Option Thread} (at_ : s.pc p = .running target) :
    Lawful n ((makeRunnable s target).goto p .leaving) := by
  cases target with
  | none =>
    apply lawful.goto at_
    · constructor <;> simp
    · exact ⟨rfl,rfl,rfl,rfl⟩
    · rfl
    · rfl
  | some target =>
    have did : isClaimed (s.pc target) := (lawful.monitor.claims target).mpr ⟨p,by simp [roles,at_]⟩
    have claimed : s.pc target = .claimed := by cases hit : s.pc target <;> simp_all
    have apart : target ≠ p := by
      intro eq
      rw [eq,at_] at claimed
      cases claimed
    have claim : ∀ q, wakes (.leaving : Pc Thread) = some q ↔
        if q = target then isClaimed (.woken : Pc Thread) = true else wakes (.running (some target)) = some q := by
      intro q
      by_cases here : q = target
      · simp [here]
      · simp [here,Ne.symm here]
    apply lawful.handed
    · exact lawful.monitor.hand claimed at_ apart rfl (lawful.monitor.queue.keep (by simp [roles,claimed])) rfl rfl rfl
        rfl rfl (by simp [roles]) rfl rfl claim
    · simp
    · simp
    apply Helped.move
    · apply lawful.helped.move
      · simp
      · simp
    · simp
    · simp [update_of_ne apart.symm,at_]

lemma next_lawful (did : next s p = some t) : Lawful n t := by
  have refusals := lawful.refused p
  have hit := lawful.found p
  cases at_ : s.pc p with
  | idle | asleep | claimed => simp only [next,at_,reduceCtorEq] at did
  | contend | woken =>
    simp only [next,at_] at did
    apply lawful.spinlockAcquire did at_ _ ⟨rfl,rfl,rfl,rfl⟩ rfl rfl
    constructor <;> simp
  | testing =>
    simp only [next,at_,some.injEq] at did
    subst did
    by_cases zero : s.semCount = 0
    · rw [if_pos zero]
      refine lawful.goto at_ ?_ ⟨rfl,rfl,rfl,rfl⟩ rfl rfl
      constructor <;> simp [zero]
    rw [if_neg zero]
    refine lawful.goto at_ ?_ ⟨rfl,rfl,rfl,rfl⟩ rfl rfl
    constructor <;> simp [zero]
  | locking =>
    rw [at_] at refusals
    simp only [next,at_] at did
    apply lawful.wchanLock did at_ _ ⟨rfl,rfl,rfl,rfl⟩ rfl rfl
    constructor <;> simp [refusals rfl]
  | unlocking =>
    rw [at_] at refusals
    simp only [next,at_] at did
    apply lawful.spinlockRelease did at_ _ ⟨rfl,rfl,rfl,rfl⟩ rfl rfl
    constructor <;> simp [refusals rfl]
  | sleeping =>
    simp only [next,at_,some.injEq] at did
    subst did
    exact lawful.addtail at_
  | switching =>
    simp only [next,at_] at did
    apply lawful.wchanUnlock did at_ _ ⟨rfl,rfl,rfl,rfl⟩ rfl rfl
    constructor <;> simp
  | decrementing =>
    simp only [next,at_] at did
    exact lawful.decrement at_ did
  | posting =>
    simp only [next,at_] at did
    apply lawful.spinlockAcquire did at_ _ ⟨rfl,rfl,rfl,rfl⟩ rfl rfl
    constructor <;> simp
  | incrementing =>
    simp only [next,at_] at did
    exact lawful.increment at_ did
  | waking =>
    simp only [next,at_] at did
    apply lawful.wchanLock did at_ _ ⟨rfl,rfl,rfl,rfl⟩ rfl rfl
    constructor <;> simp
  | taking =>
    simp only [next,at_,some.injEq] at did
    subst did
    exact lawful.takeHead at_
  | taken target =>
    simp only [next,at_] at did
    apply lawful.wchanUnlock did at_ _ ⟨rfl,rfl,rfl,rfl⟩ rfl rfl
    constructor <;> simp
  | running target =>
    simp only [next,at_,some.injEq] at did
    subst did
    exact lawful.makeRunnable at_
  | leaving =>
    simp only [next,at_] at did
    apply lawful.spinlockRelease did at_ _ ⟨rfl,rfl,rfl,rfl⟩ rfl rfl
    constructor <;> simp

lemma step_lawful (did : step s event = some t) : Lawful n t := by
  cases event with
  | run p => exact next_lawful lawful did
  | P p | V p =>
    simp only [step,ite_none_right_eq_some,some.injEq] at did
    obtain ⟨at_,rfl⟩ := did
    refine lawful.goto at_ ?_ ⟨rfl,rfl,rfl,rfl⟩ rfl rfl
    constructor <;> simp

end

lemma reached_lawful (lt : n < 2^31) (path : Reached step Free (created n) s) : Lawful n s :=
  path.invariant (Lawful n) (created_lawful lt) fun _ lawful _ did => step_lawful lawful did

section
omit [DecidableEq Thread]

lemma listed_sleeps (waits : listed was) : sleeps was := by
  cases was <;> simp_all

lemma helps_outside (helping : helps was) (out : holdsSpin was = false) (unclaimed : isClaimed was ≠ true) :
    was = .contend ∨ was = .woken := by
  cases was <;> simp_all

end

theorem semaphore_law (small : n < 2^31) (path : Reached step Free (created n) s) :
    0 ≤ s.semCount ∧ s.semCount = n+s.increments-s.decrements ∧
    (s.semLock = none → s.wcLock = none → 0 < s.semCount → s.wcThreads ≠ [] →
      ∃ q, s.pc q = .contend ∨ s.pc q = .woken) := by
  have lawful := reached_lawful small path
  refine ⟨lawful.nonneg,lawful.balance,fun spin _ positive waiting => ?_⟩
  obtain ⟨sleeper,queued⟩ := List.exists_mem_of_ne_nil s.wcThreads waiting
  have listing := (lawful.monitor.queue.mem sleeper).mp queued
  obtain ⟨helpers,helping,enough⟩ := lawful.helped ⟨sleeper,listed_sleeps listing⟩
  have some_ : 0 < helpers.card := by omega
  obtain ⟨helper,member⟩ := Finset.card_pos.mp some_
  have outside : ∀ q, holdsSpin (s.pc q) = false := (spin ▸ lawful.monitor.spin).free
  refine ⟨helper,helps_outside (helping helper member) (outside helper) fun claimed => ?_⟩
  obtain ⟨waker,waking⟩ := (lawful.monitor.claims helper).mp claimed
  have spinning : holdsSpin (s.pc waker) = true := roles.waker _ _ waking
  rw [outside waker] at spinning
  cases spinning

def stolenEvents : List (Event (Fin 4)) :=
  .P 0 :: List.replicate 6 (.run 0)++.P 1 :: List.replicate 6 (.run 1)++.V 2 :: List.replicate 7 (.run 2)

theorem semaphore_law_woken : ∃ s : System (Fin 4), s.semCount = 1 ∧ s.wcThreads = [1] ∧ s.increments = 1 ∧
    ∃ q, s.pc q = .contend ∨ s.pc q = .woken := by
  have ran : (run step (created 0) stolenEvents).map
      (fun s => (s.semLock,s.wcLock,s.semCount,s.wcThreads,s.increments)) = some (none,none,1,[1],1) := by
    decide +kernel
  obtain ⟨s,reached,shown⟩ := map_eq_some_iff.mp ran
  simp only [Prod.mk.injEq] at shown
  obtain ⟨spin,channel,count,waiting,once⟩ := shown
  have law := semaphore_law (by decide) (run_reached reached)
  refine ⟨s,count,waiting,once,law.2.2 spin channel (by omega) ?_⟩
  rw [waiting]
  exact List.cons_ne_nil 1 []
end ToyOS.Semaphore
