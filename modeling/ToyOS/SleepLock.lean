import ToyOS.Library.WaitChannel
import ToyOS.Library.Transition

namespace ToyOS.SleepLock
open Function Tokens WaitChannel Transition Option

-- Where a thread is in lock_acquire and lock_release of one lock, by its next operation on the lock, its spinlock or
-- its wait channel. At idle and holding it is in neither.
inductive Pc (Thread : Type) where
  | idle
  -- lock_acquire: spinlock_acquire, also again after wchan_sleep
  | contend
  | woken
  -- while(lock->lk_holder != NULL)
  | testing
  -- wchan_lock, spinlock_release
  | locking
  | unlocking
  -- wchan_sleep: threadlist_addtail, wchan_unlock
  | sleeping
  | switching
  | asleep
  -- taken off the channel and not yet runnable
  | claimed
  -- lock->lk_holder = curthread, spinlock_release
  | assigning
  | acquired
  | holding
  -- lock_release: spinlock_acquire, lock->lk_holder = NULL
  | releasing
  | clearing
  -- wchan_wakeone: spinlock_acquire, threadlist_remhead, spinlock_release, thread_make_runnable
  | waking
  | taking
  | taken (target : Option Thread)
  | running (target : Option Thread)
  -- spinlock_release
  | leaving
  deriving DecidableEq

-- The spinlocks are by the thread that holds them.
structure System (Thread : Type) where
  lkHolder : Option Thread
  lkLock : Option Thread
  wcLock : Option Thread
  wcThreads : List Thread
  pc : Thread → Pc Thread

inductive Event (Thread : Type) where
  | lockAcquire (p : Thread)
  | lockRelease (p : Thread)
  | run (p : Thread)

variable {Thread : Type} [DecidableEq Thread]

def created : System Thread := ⟨none,none,none,[],fun _ => .idle⟩
def lockDoIHold (s : System Thread) (p : Thread) : Bool := s.lkHolder == some p
def System.goto (s : System Thread) (p : Thread) (pc : Pc Thread) : System Thread := {s with pc := update s.pc p pc}

def spinlockAcquire (s : System Thread) (p : Thread) (pc : Pc Thread) : Option (System Thread) :=
  if s.lkLock = none then some {s.goto p pc with lkLock := some p} else none

def spinlockRelease (s : System Thread) (p : Thread) (pc : Pc Thread) : Option (System Thread) :=
  if s.lkLock = some p then some {s.goto p pc with lkLock := none} else none

def wchanLock (s : System Thread) (p : Thread) (pc : Pc Thread) : Option (System Thread) :=
  if s.wcLock = none then some {s.goto p pc with wcLock := some p} else none

def wchanUnlock (s : System Thread) (p : Thread) (pc : Pc Thread) : Option (System Thread) :=
  if s.wcLock = some p then some {s.goto p pc with wcLock := none} else none

def takeHead (s : System Thread) (p : Thread) : System Thread :=
  match s.wcThreads with
  | [] => s.goto p (.taken none)
  | target :: rest => {(s.goto target .claimed).goto p (.taken (some target)) with wcThreads := rest}

def makeRunnable (s : System Thread) : Option Thread → System Thread
  | none => s
  | some target => s.goto target .woken

def next (s : System Thread) (p : Thread) : Option (System Thread) :=
  match s.pc p with
  | .contend | .woken => spinlockAcquire s p .testing
  | .testing => some (s.goto p (if s.lkHolder = none then .assigning else .locking))
  | .locking => wchanLock s p .unlocking
  | .unlocking => spinlockRelease s p .sleeping
  | .sleeping => some {s.goto p .switching with wcThreads := s.wcThreads++[p]}
  | .switching => wchanUnlock s p .asleep
  | .assigning => if s.lkHolder = none then some {s.goto p .acquired with lkHolder := some p} else none
  | .acquired => spinlockRelease s p .holding
  | .releasing => spinlockAcquire s p .clearing
  | .clearing => some {s.goto p .waking with lkHolder := none}
  | .waking => wchanLock s p .taking
  | .taking => some (takeHead s p)
  | .taken target => wchanUnlock s p (.running target)
  | .running target => some ((makeRunnable s target).goto p .leaving)
  | .leaving => spinlockRelease s p .idle
  | .idle | .holding | .asleep | .claimed => none

def step (s : System Thread) : Event Thread → Option (System Thread)
  | .lockAcquire p => match s.pc p with
    | .idle | .holding => if lockDoIHold s p then none else some (s.goto p .contend)
    | _ => none
  | .lockRelease p => match s.pc p with
    | .idle | .holding => if lockDoIHold s p then some (s.goto p .releasing) else none
    | _ => none
  | .run p => next s p

section
omit [DecidableEq Thread]

@[simp] def holdsSpin : Pc Thread → Bool
  | .testing | .locking | .unlocking | .assigning | .acquired | .clearing | .waking | .taking | .taken _ | .running _
  | .leaving => true
  | _ => false

@[simp] def holdsChannel : Pc Thread → Bool
  | .unlocking | .sleeping | .switching | .taking | .taken _ => true
  | _ => false

@[simp] def owns : Pc Thread → Bool
  | .acquired | .holding | .releasing | .clearing => true
  | _ => false

@[simp] def listed : Pc Thread → Bool
  | .switching | .asleep => true
  | _ => false

@[simp] def sleeps : Pc Thread → Bool
  | .sleeping | .switching | .asleep => true
  | _ => false

@[simp] def helps : Pc Thread → Bool
  | .contend | .woken | .testing | .assigning | .claimed | .waking | .taking => true
  | _ => false

@[simp] def denied : Pc Thread → Bool
  | .locking | .unlocking => true
  | _ => false

@[simp] def isClaimed : Pc Thread → Bool
  | .claimed => true
  | _ => false

@[simp] def wakes : Pc Thread → Option Thread
  | .taken target | .running target => target
  | _ => none

end

def roles : Roles Thread (Pc Thread) where
  holdsSpin := holdsSpin
  holdsChannel := holdsChannel
  listed := listed
  sleeps := sleeps
  claimed := isClaimed
  wakes now q := wakes now = some q
  waker now q waking := by cases now <;> first | rfl | cases waking
  sleeper now sleeping := by cases now <;> simp_all

-- What lock_acquire has seen of the holder while it has the spinlock.
structure Tested (lkHolder : Option Thread) (now : Pc Thread) : Prop where
  refused : denied now = true → lkHolder ≠ none
  assigning : now = .assigning → lkHolder = none

-- A free lock has one thread on its way to it as long as others sleep.
structure Safe (s : System Thread) : Prop where
  monitor : Monitor roles s.lkLock s.wcLock s.wcThreads s.pc
  holder : Held owns s.lkHolder s.pc
  tested : ∀ p, Tested s.lkHolder (s.pc p)
  helped : s.lkHolder = none → Helped sleeps helps 1 s.pc

variable {s t : System Thread} {p q target : Thread} {was now : Pc Thread}

omit [DecidableEq Thread] in
lemma created_safe : Safe (created : System Thread) := by
  refine ⟨⟨fun p => ?_,fun p => ?_,⟨List.nodup_nil,fun p => ?_⟩,fun t => ?_⟩,fun p => ?_,
    fun p => ⟨?_,?_⟩,fun _ waiting => ?_⟩
  all_goals simp_all [created,roles]

-- A move that leaves the holder as it is.
structure Moves (lkHolder : Option Thread) (was now : Pc Thread) : Prop where
  owns : owns now = owns was
  refused : denied now = true → lkHolder ≠ none
  assigning : now = .assigning → lkHolder = none
  sleeps : sleeps now = true → sleeps was = true ∨ lkHolder ≠ none
  helps : helps was = true → helps now = true ∨ lkHolder ≠ none

section
variable (safe : Safe s)
include safe

lemma Safe.moved (at_ : s.pc p = was) (moves : Moves s.lkHolder was now)
    (monitor : Monitor roles lkLock wcLock wcThreads (update s.pc p now)) :
    Safe ⟨s.lkHolder,lkLock,wcLock,wcThreads,update s.pc p now⟩ := by
  subst at_
  have tested : Tested s.lkHolder now := ⟨moves.refused,moves.assigning⟩
  refine ⟨monitor,safe.holder.keep moves.owns,forall_update safe.tested tested,fun free => ?_⟩
  apply (safe.helped free).move
  · exact fun asleep => (moves.sleeps asleep).resolve_right fun held => held free
  · exact fun helping => (moves.helps helping).resolve_right fun held => held free

lemma Safe.goto (at_ : s.pc p = was) (moves : Moves s.lkHolder was now) (quiet : roles.Quiet was now)
    (spins : holdsSpin now = holdsSpin was) (locks : holdsChannel now = holdsChannel was) : Safe (s.goto p now) :=
  safe.moved at_ moves (safe.monitor.goto at_ quiet spins locks)

lemma Safe.spinlockAcquire (did : spinlockAcquire s p now = some t) (at_ : s.pc p = was)
    (moves : Moves s.lkHolder was now) (quiet : roles.Quiet was now) (gets : holdsSpin now)
    (locks : holdsChannel now = holdsChannel was) : Safe t := by
  simp only [SleepLock.spinlockAcquire,ite_none_right_eq_some,some.injEq] at did
  obtain ⟨free,rfl⟩ := did
  have monitor := safe.monitor
  rw [free] at monitor
  exact safe.moved at_ moves (monitor.acquire at_ quiet gets locks)

lemma Safe.spinlockRelease (did : spinlockRelease s p now = some t) (at_ : s.pc p = was)
    (moves : Moves s.lkHolder was now) (quiet : roles.Quiet was now) (leaves : holdsSpin now = false)
    (locks : holdsChannel now = holdsChannel was) : Safe t := by
  simp only [SleepLock.spinlockRelease,ite_none_right_eq_some,some.injEq] at did
  obtain ⟨mine,rfl⟩ := did
  have monitor := safe.monitor
  rw [mine] at monitor
  exact safe.moved at_ moves (monitor.release at_ quiet leaves locks)

lemma Safe.wchanLock (did : wchanLock s p now = some t) (at_ : s.pc p = was) (moves : Moves s.lkHolder was now)
    (quiet : roles.Quiet was now) (spins : holdsSpin now = holdsSpin was) (gets : holdsChannel now) : Safe t := by
  simp only [SleepLock.wchanLock,ite_none_right_eq_some,some.injEq] at did
  obtain ⟨free,rfl⟩ := did
  have monitor := safe.monitor
  rw [free] at monitor
  exact safe.moved at_ moves (monitor.lock at_ quiet spins gets)

lemma Safe.wchanUnlock (did : wchanUnlock s p now = some t) (at_ : s.pc p = was) (moves : Moves s.lkHolder was now)
    (quiet : roles.Quiet was now) (spins : holdsSpin now = holdsSpin was) (leaves : holdsChannel now = false) :
    Safe t := by
  simp only [SleepLock.wchanUnlock,ite_none_right_eq_some,some.injEq] at did
  obtain ⟨mine,rfl⟩ := did
  have monitor := safe.monitor
  rw [mine] at monitor
  exact safe.moved at_ moves (monitor.unlock at_ quiet spins leaves)

lemma Safe.addtail (at_ : s.pc p = .sleeping) : Safe {s.goto p .switching with wcThreads := s.wcThreads++[p]} := by
  apply safe.moved at_
  · constructor <;> simp
  · exact safe.monitor.addtail at_ rfl rfl rfl rfl rfl rfl rfl

lemma Safe.assigned (at_ : s.pc p = .assigning) : Safe {s.goto p .acquired with lkHolder := some p} := by
  have holder := safe.holder
  rw [(safe.tested p).assigning at_] at holder
  have spinning : holdsSpin (s.pc p) := by rw [at_,holdsSpin]
  refine ⟨safe.monitor.goto at_ ⟨rfl,rfl,rfl,rfl⟩ rfl rfl,holder.take rfl,
    (forall_update_iff s.pc fun _ pc => Tested (some p) pc).mpr ⟨⟨by simp,by simp⟩,fun q other => ?_⟩,
    fun free => absurd free (some_ne_none p)⟩
  refine ⟨fun _ => some_ne_none p,fun testing => ?_⟩
  have both : holdsSpin (s.pc q) := by rw [testing,holdsSpin]
  exact absurd (safe.monitor.spin.unique both spinning) other

end

omit [DecidableEq Thread] in
lemma denied_spins (refused : denied was) : holdsSpin was := by
  cases was <;> first | rfl | cases refused

lemma Safe.cleared (safe : Safe s) (at_ : s.pc p = .clearing) : Safe {s.goto p .waking with lkHolder := none} := by
  have mine : owns (s.pc p) := by rw [at_,owns]
  have holder := safe.holder
  rw [(safe.holder p).mpr mine] at holder
  have spinning : holdsSpin (s.pc p) := by rw [at_,holdsSpin]
  refine ⟨safe.monitor.goto at_ ⟨rfl,rfl,rfl,rfl⟩ rfl rfl,holder.drop rfl,
    (forall_update_iff s.pc fun _ pc => Tested none pc).mpr ⟨⟨by simp,by simp⟩,fun q other => ?_⟩,
    fun _ => helped_none.more (by simp) (by simp [at_]) rfl⟩
  refine ⟨fun blocked => ?_,fun _ => rfl⟩
  exact absurd (safe.monitor.spin.unique (denied_spins blocked) spinning) other

omit [DecidableEq Thread] in
lemma listed_sleeps (waits : listed was) : sleeps was := by
  cases was with
  | switching | asleep => rfl
  | _ => cases waits

omit [DecidableEq Thread] in
lemma Safe.target_asleep (safe : Safe s) (locks : holdsChannel (s.pc p)) (out : listed (s.pc p) = false)
    (queued : target ∈ s.wcThreads) : s.pc target = .asleep ∧ target ≠ p := by
  obtain ⟨waits,unlocked,apart⟩ := safe.monitor.queued locks out queued
  simp only [roles] at waits unlocked
  refine ⟨?_,apart⟩
  cases hit : s.pc target <;> simp_all

omit [DecidableEq Thread] in
lemma Safe.claimed (safe : Safe s) (at_ : s.pc p = .running (some target)) : s.pc target = .claimed ∧ target ≠ p := by
  have did : isClaimed (s.pc target) := (safe.monitor.claims target).mpr ⟨p,by simp [roles,at_]⟩
  have claimed : s.pc target = .claimed := by cases hit : s.pc target <;> simp_all
  refine ⟨claimed,fun same => ?_⟩
  rw [same,at_] at claimed
  cases claimed

lemma Safe.handed (safe : Safe s) {handed : Pc Thread} {rest : List Thread} (targetAt : s.pc target = was)
    (monitor : Monitor roles s.lkLock s.wcLock rest (update (update s.pc target handed) p now)) (apart : target ≠ p)
    (targetOwns : owns handed = owns was) (targetTested : Tested s.lkHolder handed) (owner : owns now = owns (s.pc p))
    (tested : Tested s.lkHolder now)
    (helped : s.lkHolder = none → Helped sleeps helps 1 (update (update s.pc target handed) p now)) :
    Safe ⟨s.lkHolder,s.lkLock,s.wcLock,rest,update (update s.pc target handed) p now⟩ := by
  subst targetAt
  have still : update s.pc target handed p = s.pc p := update_of_ne apart.symm _ _
  exact ⟨monitor,(safe.holder.keep targetOwns).keep (still ▸ owner),
    forall_update (forall_update safe.tested targetTested) tested,helped⟩

lemma Safe.takeHead (safe : Safe s) (at_ : s.pc p = .taking) : Safe (takeHead s p) := by
  have locks : holdsChannel (s.pc p) := by rw [at_,holdsChannel]
  have monitor := safe.monitor
  unfold SleepLock.takeHead
  cases queued : s.wcThreads with
  | nil =>
    rw [queued] at monitor
    have nobody := monitor.none_sleeps locks (by simp [roles,at_])
    refine ⟨safe.monitor.goto at_ ⟨rfl,rfl,rfl,rfl⟩ rfl rfl,safe.holder.keep (by simp [at_]),
      forall_update safe.tested ⟨by simp,by simp⟩,fun _ waiting => ?_⟩
    rcases (exists_update_iff s.pc fun _ pc => sleeps pc).mp waiting with no | ⟨q,_,sleeping⟩
    · cases no
    · exact absurd sleeping (nobody q)
  | cons target rest =>
    rw [queued] at monitor
    obtain ⟨sleeper,apart⟩ := safe.target_asleep locks (by simp [at_]) (queued ▸ List.mem_cons_self)
    have claim : ∀ q, wakes (.taken (some target)) = some q ↔
        if q = target then isClaimed (.claimed : Pc Thread) = true else wakes (.taking : Pc Thread) = some q := by
      intro q
      by_cases here : q = target
      · simp [here]
      · simp [here,Ne.symm here]
    refine safe.handed sleeper ?_ apart rfl ⟨by simp,by simp⟩ (by simp [at_]) ⟨by simp,by simp⟩ fun free => ?_
    · exact monitor.hand sleeper at_ apart rfl (monitor.queue.leave rfl) rfl rfl rfl rfl rfl (by simp [roles]) rfl rfl
        claim
    · exact (safe.helped free).hand apart (by simp [sleeper]) rfl (by simp) (by simp)

lemma Safe.makeRunnable (safe : Safe s) {target : Option Thread} (at_ : s.pc p = .running target) :
    Safe ((makeRunnable s target).goto p .leaving) := by
  cases target with
  | none =>
    refine safe.goto at_ ?_ ⟨rfl,rfl,rfl,rfl⟩ rfl rfl
    constructor <;> simp
  | some target =>
    obtain ⟨claimed,apart⟩ := safe.claimed at_
    have claim : ∀ q, wakes (.leaving : Pc Thread) = some q ↔
        if q = target then isClaimed (.woken : Pc Thread) = true else wakes (.running (some target)) = some q := by
      intro q
      by_cases here : q = target
      · simp [here]
      · simp [here,Ne.symm here]
    refine safe.handed claimed ?_ apart rfl ⟨by simp,by simp⟩ (by simp [at_]) ⟨by simp,by simp⟩ fun free => ?_
    · exact safe.monitor.hand claimed at_ apart rfl (safe.monitor.queue.keep (by simp [roles,claimed])) rfl rfl rfl
        rfl rfl (by simp [roles]) rfl rfl claim
    apply ((safe.helped free).move _ _).move
    all_goals simp [update_of_ne apart.symm,at_,claimed]

lemma next_safe (safe : Safe s) (did : next s p = some t) : Safe t := by
  have denials := (safe.tested p).refused
  have tested := (safe.tested p).assigning
  cases at_ : s.pc p with
  | idle | holding | asleep | claimed => simp only [next,at_,reduceCtorEq] at did
  | contend | woken =>
    simp only [next,at_] at did
    refine safe.spinlockAcquire did at_ ?_ ⟨rfl,rfl,rfl,rfl⟩ rfl rfl
    constructor <;> simp
  | testing =>
    simp only [next,at_,some.injEq] at did
    subst did
    by_cases free : s.lkHolder = none
    · rw [if_pos free]
      refine safe.goto at_ ?_ ⟨rfl,rfl,rfl,rfl⟩ rfl rfl
      constructor <;> simp [free]
    rw [if_neg free]
    refine safe.goto at_ ?_ ⟨rfl,rfl,rfl,rfl⟩ rfl rfl
    constructor <;> simp [free]
  | locking =>
    rw [at_] at denials
    simp only [next,at_] at did
    refine safe.wchanLock did at_ ?_ ⟨rfl,rfl,rfl,rfl⟩ rfl rfl
    constructor <;> simp [denials rfl]
  | unlocking =>
    rw [at_] at denials
    simp only [next,at_] at did
    refine safe.spinlockRelease did at_ ?_ ⟨rfl,rfl,rfl,rfl⟩ rfl rfl
    constructor <;> simp [denials rfl]
  | sleeping =>
    simp only [next,at_,some.injEq] at did
    subst did
    exact safe.addtail at_
  | switching =>
    simp only [next,at_] at did
    refine safe.wchanUnlock did at_ ?_ ⟨rfl,rfl,rfl,rfl⟩ rfl rfl
    constructor <;> simp
  | assigning =>
    simp only [next,at_,tested at_,if_true,some.injEq] at did
    subst did
    exact safe.assigned at_
  | acquired | leaving =>
    simp only [next,at_] at did
    refine safe.spinlockRelease did at_ ?_ ⟨rfl,rfl,rfl,rfl⟩ rfl rfl
    constructor <;> simp
  | releasing =>
    simp only [next,at_] at did
    refine safe.spinlockAcquire did at_ ?_ ⟨rfl,rfl,rfl,rfl⟩ rfl rfl
    constructor <;> simp
  | clearing =>
    simp only [next,at_,some.injEq] at did
    subst did
    exact safe.cleared at_
  | waking =>
    simp only [next,at_] at did
    refine safe.wchanLock did at_ ?_ ⟨rfl,rfl,rfl,rfl⟩ rfl rfl
    constructor <;> simp
  | taking =>
    simp only [next,at_,some.injEq] at did
    subst did
    exact safe.takeHead at_
  | taken target =>
    simp only [next,at_] at did
    refine safe.wchanUnlock did at_ ?_ ⟨rfl,rfl,rfl,rfl⟩ rfl rfl
    constructor <;> simp
  | running target =>
    simp only [next,at_,some.injEq] at did
    subst did
    exact safe.makeRunnable at_

@[simp] def inAcquire : Pc Thread → Bool
  | .contend | .woken | .testing | .locking | .unlocking | .sleeping | .switching | .asleep | .claimed | .assigning
  | .acquired | .holding => true
  | _ => false

@[simp] def inRelease : Pc Thread → Bool
  | .releasing | .clearing | .waking | .taking | .taken _ | .running _ | .leaving | .idle => true
  | _ => false

-- What a step does to the thread that takes it: it stays in its function, and its hold on the lock changes with one
-- assignment only.
structure Follows (was now : Pc Thread) : Prop where
  acquire : inAcquire was = true → inAcquire now = true
  release : inRelease was = true → inRelease now = true
  owns : owns now = true → owns was = true ∨ was = .assigning

-- The others are woken at most.
structure Wakes (was now : Pc Thread) : Prop where
  same : was ≠ .asleep → was ≠ .claimed → now = was
  sleeper : was = .asleep ∨ was = .claimed → now = .asleep ∨ now = .claimed ∨ now = .woken

-- What a step of `p` does to the threads and to the holder.
structure Stepped (s : System Thread) (p : Thread) (t : System Thread) : Prop where
  self : Follows (s.pc p) (t.pc p)
  others : ∀ q, q ≠ p → Wakes (s.pc q) (t.pc q)
  holder : t.lkHolder = s.lkHolder ∨ s.pc p = .assigning ∧ t.lkHolder = some p ∨ s.pc p = .clearing

omit [DecidableEq Thread] in
lemma wakes_refl : Wakes was was := ⟨fun _ _ => rfl,fun place => place.imp_right .inl⟩

lemma stepped_update (at_ : s.pc p = was) (follows : Follows was now) (pc : t.pc = update s.pc p now)
    (holder : t.lkHolder = s.lkHolder ∨ was = .assigning ∧ t.lkHolder = some p ∨ was = .clearing) : Stepped s p t := by
  subst at_
  refine ⟨?_,fun q other => ?_,holder⟩
  · rw [pc,update_self]
    exact follows
  rw [pc,update_of_ne other]
  exact wakes_refl

lemma stepped_spinlockAcquire (did : spinlockAcquire s p now = some t) (at_ : s.pc p = was)
    (follows : Follows was now) : Stepped s p t := by
  simp only [spinlockAcquire,ite_none_right_eq_some,some.injEq] at did
  obtain ⟨_,rfl⟩ := did
  exact stepped_update at_ follows rfl (.inl rfl)

lemma stepped_spinlockRelease (did : spinlockRelease s p now = some t) (at_ : s.pc p = was)
    (follows : Follows was now) : Stepped s p t := by
  simp only [spinlockRelease,ite_none_right_eq_some,some.injEq] at did
  obtain ⟨_,rfl⟩ := did
  exact stepped_update at_ follows rfl (.inl rfl)

lemma stepped_wchanLock (did : wchanLock s p now = some t) (at_ : s.pc p = was)
    (follows : Follows was now) : Stepped s p t := by
  simp only [wchanLock,ite_none_right_eq_some,some.injEq] at did
  obtain ⟨_,rfl⟩ := did
  exact stepped_update at_ follows rfl (.inl rfl)

lemma stepped_wchanUnlock (did : wchanUnlock s p now = some t) (at_ : s.pc p = was)
    (follows : Follows was now) : Stepped s p t := by
  simp only [wchanUnlock,ite_none_right_eq_some,some.injEq] at did
  obtain ⟨_,rfl⟩ := did
  exact stepped_update at_ follows rfl (.inl rfl)

section
variable (safe : Safe s)
include safe

lemma stepped_takeHead (at_ : s.pc p = .taking) : Stepped s p (takeHead s p) := by
  have locking : holdsChannel (s.pc p) := by simp [at_]
  unfold takeHead
  cases queued : s.wcThreads with
  | nil =>
    refine stepped_update at_ ?_ rfl (.inl rfl)
    constructor <;> simp
  | cons target rest =>
    obtain ⟨sleeper,apart⟩ := safe.target_asleep locking (by simp [at_]) (queued ▸ List.mem_cons_self)
    refine ⟨?_,fun q other => ?_,.inl rfl⟩
    · rw [at_]
      constructor <;> simp [System.goto]
    by_cases here : q = target
    · subst here
      constructor <;> simp [System.goto,other,sleeper]
    simp only [System.goto,update_of_ne other,update_of_ne here]
    exact wakes_refl

lemma stepped_makeRunnable {target : Option Thread} (at_ : s.pc p = .running target) :
    Stepped s p ((makeRunnable s target).goto p .leaving) := by
  cases target with
  | none =>
    refine stepped_update at_ ?_ rfl (.inl rfl)
    constructor <;> simp
  | some target =>
    have claimed := (safe.claimed at_).1
    refine ⟨?_,fun q other => ?_,.inl rfl⟩
    · rw [at_]
      constructor <;> simp [System.goto,makeRunnable]
    by_cases here : q = target
    · subst here
      constructor <;> simp [System.goto,makeRunnable,other,claimed]
    simp only [System.goto,makeRunnable,update_of_ne other,update_of_ne here]
    exact wakes_refl

lemma next_stepped (did : next s p = some t) : Stepped s p t := by
  cases at_ : s.pc p with
  | idle | holding | asleep | claimed => simp only [next,at_,reduceCtorEq] at did
  | contend | woken | releasing =>
    simp only [next,at_] at did
    apply stepped_spinlockAcquire did at_
    constructor <;> simp
  | unlocking | acquired | leaving =>
    simp only [next,at_] at did
    apply stepped_spinlockRelease did at_
    constructor <;> simp
  | locking | waking =>
    simp only [next,at_] at did
    apply stepped_wchanLock did at_
    constructor <;> simp
  | switching | taken =>
    simp only [next,at_] at did
    apply stepped_wchanUnlock did at_
    constructor <;> simp
  | testing =>
    simp only [next,at_,some.injEq] at did
    subst did
    refine stepped_update at_ ?_ rfl (.inl rfl)
    split
    · constructor <;> simp
    · constructor <;> simp
  | sleeping =>
    simp only [next,at_,some.injEq] at did
    subst did
    have follows : Follows (.sleeping : Pc Thread) .switching := by constructor <;> simp
    exact stepped_update at_ follows rfl (.inl rfl)
  | assigning =>
    simp only [next,at_,ite_none_right_eq_some,some.injEq] at did
    obtain ⟨_,rfl⟩ := did
    have follows : Follows (.assigning : Pc Thread) .acquired := by constructor <;> simp
    exact stepped_update at_ follows rfl (.inr (.inl ⟨rfl,rfl⟩))
  | clearing =>
    simp only [next,at_,some.injEq] at did
    subst did
    have follows : Follows (.clearing : Pc Thread) .waking := by constructor <;> simp
    exact stepped_update at_ follows rfl (.inr (.inr rfl))
  | taking =>
    simp only [next,at_,some.injEq] at did
    subst did
    exact stepped_takeHead safe at_
  | running target =>
    simp only [next,at_,some.injEq] at did
    subst did
    exact stepped_makeRunnable safe at_

lemma acquire_called (did : step s (.lockAcquire p) = some t) : s.pc p = .idle ∧ t = s.goto p .contend := by
  simp only [step] at did
  split at did
  · rename_i at_
    simp only [Option.ite_none_left_eq_some,some.injEq] at did
    exact ⟨at_,did.2.symm⟩
  · rename_i at_
    have mine : lockDoIHold s p := by simp [lockDoIHold,safe.holder p,at_]
    simp [mine] at did
  · cases did

lemma release_called (did : step s (.lockRelease p) = some t) : s.pc p = .holding ∧ t = s.goto p .releasing := by
  simp only [step] at did
  split at did
  · rename_i at_
    have ne : lockDoIHold s p = false := by simp [lockDoIHold,safe.holder p,at_]
    simp [ne] at did
  · rename_i at_
    simp only [ite_none_right_eq_some,some.injEq] at did
    exact ⟨at_,did.2.symm⟩
  · cases did

end

lemma step_safe (safe : Safe s) (did : step s event = some t) : Safe t := by
  cases event with
  | run p => exact next_safe safe did
  | lockAcquire p =>
    obtain ⟨at_,rfl⟩ := acquire_called safe did
    refine safe.goto at_ ?_ ⟨rfl,rfl,rfl,rfl⟩ rfl rfl
    constructor <;> simp
  | lockRelease p =>
    obtain ⟨at_,rfl⟩ := release_called safe did
    refine safe.goto at_ ?_ ⟨rfl,rfl,rfl,rfl⟩ rfl rfl
    constructor <;> simp

lemma reached_safe (path : Reached step Free created s) : Safe s :=
  path.invariant Safe created_safe fun _ safe _ did => step_safe safe did

def between : Pc Thread → Bool
  | .holding | .releasing => true
  | _ => false

section
omit [DecidableEq Thread]

lemma owns_iff : owns was ↔ between was ∨ was = .acquired ∨ was = .clearing := by
  cases was <;> simp [between]

lemma helps_outside (helping : helps was) (out : holdsSpin was = false) (unclaimed : isClaimed was ≠ true) :
    was = .contend ∨ was = .woken := by
  cases was with
  | contend => exact .inl rfl
  | woken => exact .inr rfl
  | claimed => exact absurd rfl unclaimed
  | testing | assigning | waking | taking => cases out
  | _ => cases helping

end

theorem sleep_lock (path : Reached step Free created s) :
    (∀ p q, between (s.pc p) = true → between (s.pc q) = true → p = q) ∧
    (∀ p, lockDoIHold s p = true ↔ between (s.pc p) = true ∨ s.pc p = .acquired ∨ s.pc p = .clearing) ∧
    (s.lkLock = none → s.wcLock = none → s.lkHolder = none → s.wcThreads ≠ [] →
      ∃ q, s.pc q = .contend ∨ s.pc q = .woken) := by
  have safe := reached_safe path
  refine ⟨fun p q first second => ?_,fun p => ?_,fun spin _ free waiting => ?_⟩
  · exact safe.holder.unique (owns_iff.mpr (.inl first)) (owns_iff.mpr (.inl second))
  · rw [←owns_iff,←safe.holder p,lockDoIHold,beq_iff_eq]
  obtain ⟨sleeper,queued⟩ := List.exists_mem_of_ne_nil s.wcThreads waiting
  have listing := (safe.monitor.queue.mem sleeper).mp queued
  obtain ⟨helpers,helping,enough⟩ := safe.helped free ⟨sleeper,listed_sleeps listing⟩
  obtain ⟨helper,member⟩ := Finset.card_pos.mp enough
  have outside : ∀ q, holdsSpin (s.pc q) = false := (spin ▸ safe.monitor.spin).free
  refine ⟨helper,helps_outside (helping helper member) (outside helper) fun claimed => ?_⟩
  obtain ⟨waker,waking⟩ := (safe.monitor.claims helper).mp claimed
  exact Bool.false_ne_true ((outside waker).symm.trans (roles.waker _ _ waking))

local instance three : NeZero 3 := ⟨by decide⟩

def waitersEvents : List (Event (Fin 3)) :=
  .lockAcquire 0 :: List.replicate 4 (.run 0)++.lockAcquire 1 :: List.replicate 6 (.run 1) ++
    .lockAcquire 2 :: List.replicate 6 (.run 2)++.lockRelease 0 :: List.replicate 7 (.run 0)

theorem sleep_lock_waiters : ∃ s : System (Fin 3), s.lkHolder = none ∧ s.wcThreads = [2] ∧
    ∃ q, s.pc q = .contend ∨ s.pc q = .woken := by
  have ran : (run step created waitersEvents).map (fun s => (s.lkLock,s.wcLock,s.lkHolder,s.wcThreads)) =
      some (none,none,none,[2]) := by decide +kernel
  obtain ⟨s,reached,shown⟩ := map_eq_some_iff.mp ran
  simp only [Prod.mk.injEq] at shown
  obtain ⟨spin,channel,free,waiting⟩ := shown
  refine ⟨s,free,waiting,(sleep_lock (run_reached reached)).2.2 spin channel free ?_⟩
  rw [waiting]
  exact List.cons_ne_nil 2 []
end ToyOS.SleepLock
