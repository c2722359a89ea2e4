import ToyOS.SleepLock

namespace ToyOS.CondVar
open Function Tokens Transition Option
open SleepLock (owns inAcquire inRelease lockDoIHold)

-- Where a thread is in cv_wait, cv_signal and cv_broadcast; the lock says where it is in lock_acquire and lock_release.
inductive Phase (Thread : Type) where
  | outside
  -- cv_wait: wchan_lock, the call of lock_release and its return
  | waiting
  | releasing
  | unlocking
  -- wchan_sleep: wchan_unlock
  | switching
  | asleep
  -- taken off the channel and not yet runnable
  | claimed
  -- the call of lock_acquire and its return
  | woken
  | relocking
  -- wchan_wakeone, or wchan_wakeall: spinlock_acquire, threadlist_remhead, spinlock_release, thread_make_runnable
  | waking (all : Bool)
  | taking (all : Bool)
  | taken (targets : List Thread)
  | running (targets : List Thread)
  deriving DecidableEq

structure System (Thread : Type) where
  lock : SleepLock.System Thread
  wcLock : Option Thread
  wcThreads : List Thread
  phase : Thread → Phase Thread

inductive Event (Thread : Type) where
  | lockAcquire (p : Thread)
  | lockRelease (p : Thread)
  | cvWait (p : Thread)
  | cvSignal (p : Thread)
  | cvBroadcast (p : Thread)
  | run (p : Thread)

variable {Thread : Type} [DecidableEq Thread]

def created : System Thread := ⟨SleepLock.created,none,[],fun _ => .outside⟩

def System.goto (s : System Thread) (p : Thread) (phase : Phase Thread) : System Thread :=
  {s with phase := update s.phase p phase}

def onLock (s : System Thread) (event : SleepLock.Event Thread) : Option (System Thread) :=
  (SleepLock.step s.lock event).map fun lock => {s with lock}

def wchanLock (s : System Thread) (p : Thread) (phase : Phase Thread) : Option (System Thread) :=
  if s.wcLock = none then some {s.goto p phase with wcLock := some p} else none

def wchanUnlock (s : System Thread) (p : Thread) (phase : Phase Thread) : Option (System Thread) :=
  if s.wcLock = some p then some {s.goto p phase with wcLock := none} else none

def targets (all : Bool) (wcThreads : List Thread) : List Thread := if all then wcThreads else wcThreads.take 1
def leftovers (all : Bool) (wcThreads : List Thread) : List Thread := if all then [] else wcThreads.drop 1

def takeThreads (s : System Thread) (p : Thread) (all : Bool) : System Thread :=
  {s with
    wcThreads := leftovers all s.wcThreads
    phase := update (moveAll s.phase (targets all s.wcThreads) .claimed) p (.taken (targets all s.wcThreads))}

def next (s : System Thread) (p : Thread) : Option (System Thread) :=
  match s.phase p with
  | .outside => onLock s (.run p)
  | .waiting => wchanLock s p .releasing
  | .releasing => (onLock s (.lockRelease p)).map (·.goto p .unlocking)
  | .unlocking =>
    if s.lock.pc p = .idle then some {s.goto p .switching with wcThreads := s.wcThreads++[p]}
    else onLock s (.run p)
  | .switching => wchanUnlock s p .asleep
  | .woken => (onLock s (.lockAcquire p)).map (·.goto p .relocking)
  | .relocking => if s.lock.pc p = .holding then some (s.goto p .outside) else onLock s (.run p)
  | .waking all => wchanLock s p (.taking all)
  | .taking all => some (takeThreads s p all)
  | .taken targets => wchanUnlock s p (.running targets)
  | .running [] => some (s.goto p .outside)
  | .running (target :: rest) => some ((s.goto target .woken).goto p (.running rest))
  | .asleep | .claimed => none

def idle (s : System Thread) (p : Thread) : Bool :=
  s.phase p = .outside && (s.lock.pc p = .idle || s.lock.pc p = .holding)

def step (s : System Thread) : Event Thread → Option (System Thread)
  | .lockAcquire p => if idle s p then onLock s (.lockAcquire p) else none
  | .lockRelease p => if idle s p then onLock s (.lockRelease p) else none
  | .cvWait p => if idle s p then some (s.goto p .waiting) else none
  | .cvSignal p => if idle s p && lockDoIHold s.lock p then some (s.goto p (.waking false)) else none
  | .cvBroadcast p => if idle s p && lockDoIHold s.lock p then some (s.goto p (.waking true)) else none
  | .run p => next s p

section
omit [DecidableEq Thread]

@[simp] def holdsChannel : Phase Thread → Bool
  | .releasing | .unlocking | .switching | .taking _ | .taken _ => true
  | _ => false

@[simp] def listed : Phase Thread → Bool
  | .switching | .asleep => true
  | _ => false

@[simp] def isClaimed : Phase Thread → Bool
  | .claimed => true
  | _ => false

@[simp] def hands : Phase Thread → List Thread
  | .taken targets | .running targets => targets
  | _ => []

@[simp] def signals : Phase Thread → Bool
  | .waking _ | .taking _ | .taken _ | .running _ => true
  | _ => false

@[simp] def isIdle : SleepLock.Pc Thread → Bool
  | .idle => true
  | _ => false

@[simp] def isHolding : SleepLock.Pc Thread → Bool
  | .holding => true
  | _ => false

@[simp] def fits : Phase Thread → SleepLock.Pc Thread → Bool
  | .outside,_ => true
  | .waiting,pc | .releasing,pc => isIdle pc || isHolding pc
  | .unlocking,pc => inRelease pc
  | .switching,pc | .asleep,pc | .claimed,pc | .woken,pc => isIdle pc
  | .relocking,pc => inAcquire pc
  | .waking _,pc | .taking _,pc | .taken _,pc | .running _,pc => isHolding pc

def waits (s : System Thread) (w : Thread) : Bool :=
  match s.phase w with
  | .unlocking => !owns (s.lock.pc w)
  | .switching | .asleep => true
  | _ => false

end

structure Coherent (s : System Thread) : Prop where
  lock : SleepLock.Safe s.lock
  matched : ∀ p, fits (s.phase p) (s.lock.pc p) = true
  channel : Held holdsChannel s.wcLock s.phase
  queue : Queued listed s.wcThreads s.phase
  claims : Claims isClaimed (fun phase q => q ∈ hands phase) s.phase
  distinct : ∀ p, (hands (s.phase p)).Nodup

variable {s t : System Thread} {p q target : Thread} {was now : Phase Thread} {before after : SleepLock.Pc Thread}
  {lock : SleepLock.System Thread}

section
omit [DecidableEq Thread]

lemma created_coherent : Coherent (created : System Thread) := by
  refine ⟨SleepLock.created_safe,fun p => rfl,fun p => ?_,⟨List.nodup_nil,fun p => ?_⟩,fun t => ?_,fun p => ?_⟩
  all_goals simp [created]

lemma fits_wakes (held : fits was before) (wakes : SleepLock.Wakes before after) : fits was after := by
  by_cases sleeping : before = .asleep ∨ before = .claimed
  · have still := wakes.sleeper sleeping
    cases was with
    | outside => rfl
    | relocking => rcases still with rfl | rfl | rfl <;> rfl
    | _ => rcases sleeping with rfl | rfl <;> cases held
  have eq := wakes.same (fun asleep => sleeping (.inl asleep)) fun claimed => sleeping (.inr claimed)
  rwa [eq]

lemma fits_follows (held : fits was before) (follows : SleepLock.Follows before after)
    (inside : was = .outside ∨ was = .unlocking ∨ was = .relocking) : fits was after := by
  rcases inside with rfl | rfl | rfl
  · rfl
  · exact follows.release held
  · exact follows.acquire held

end

lemma Coherent.next_lock (coh : Coherent s) (did : SleepLock.next s.lock p = some lock)
    (inside : s.phase p = .outside ∨ s.phase p = .unlocking ∨ s.phase p = .relocking) : Coherent {s with lock} := by
  have ran := SleepLock.next_stepped coh.lock did
  refine ⟨SleepLock.next_safe coh.lock did,fun q => ?_,coh.channel,coh.queue,coh.claims,coh.distinct⟩
  by_cases self : q = p
  · rw [self]
    exact fits_follows (coh.matched p) ran.self inside
  · exact fits_wakes (coh.matched q) (ran.others q self)

section
omit [DecidableEq Thread]

lemma Coherent.signaller (coh : Coherent s) (signalling : signals (s.phase p)) : s.lock.lkHolder = some p := by
  have held := coh.matched p
  rw [coh.lock.holder p]
  cases phase : s.phase p <;> simp_all <;> cases at_ : s.lock.pc p <;> simp_all

lemma Coherent.held_signals (coh : Coherent s) : ∃ token, Held signals token s.phase := by
  by_cases someone : ∃ p, signals (s.phase p) = true
  · obtain ⟨p,signalling⟩ := someone
    refine ⟨some p,fun q => ⟨fun eq => ?_,fun also => ?_⟩⟩
    · rwa [←some.inj eq]
    · rw [←coh.signaller signalling,coh.signaller also]
  · refine ⟨none,fun q => iff_of_false (some_ne_none q).symm fun also => someone ⟨q,also⟩⟩

lemma hands_signals (now : Phase Thread) (q : Thread) (mem : q ∈ hands now) : signals now := by
  cases now <;> first | rfl | cases mem

end

section
variable (coh : Coherent s)
include coh

lemma Coherent.moved (at_ : s.phase p = was) (safe : SleepLock.Safe lock) (rest : ∀ q ≠ p, lock.pc q = s.lock.pc q)
    (fit : fits now (lock.pc p)) (channel : Held holdsChannel wcLock (update s.phase p now))
    (queue : Queued listed wcThreads (update s.phase p now)) (eq : hands now = hands was) (old : isClaimed was = false)
    (new : isClaimed now = false) : Coherent ⟨lock,wcLock,wcThreads,update s.phase p now⟩ := by
  subst at_
  refine ⟨safe,fun q => ?_,channel,queue,coh.claims.move ?_ old new,?_⟩
  · change fits (update s.phase p now q) (lock.pc q) = true
    by_cases self : q = p
    · rw [self,update_self]
      exact fit
    rw [update_of_ne self,rest q self]
    exact coh.matched q
  · funext q
    rw [eq]
  refine (forall_update_iff s.phase fun _ phase => (hands phase).Nodup).mpr ⟨?_,fun q _ => coh.distinct q⟩
  rw [eq]
  exact coh.distinct p

lemma Coherent.goto (at_ : s.phase p = was) (fit : fits now (s.lock.pc p))
    (locks : holdsChannel now = holdsChannel was) (out : listed now = listed was) (eq : hands now = hands was)
    (old : isClaimed was = false) (new : isClaimed now = false) : Coherent (s.goto p now) := by
  subst at_
  exact coh.moved rfl coh.lock (fun _ _ => rfl) fit (coh.channel.keep locks) (coh.queue.keep out) eq old new

lemma Coherent.wchanLock (did : wchanLock s p now = some t) (at_ : s.phase p = was)
    (fit : fits now (s.lock.pc p)) (gets : holdsChannel now) (out : listed now = listed was)
    (eq : hands now = hands was) (old : isClaimed was = false) (new : isClaimed now = false) : Coherent t := by
  simp only [CondVar.wchanLock,ite_none_right_eq_some,some.injEq] at did
  obtain ⟨free,rfl⟩ := did
  have channel := coh.channel
  rw [free] at channel
  subst at_
  exact coh.moved rfl coh.lock (fun _ _ => rfl) fit (channel.take gets) (coh.queue.keep out) eq old new

lemma Coherent.wchanUnlock (did : wchanUnlock s p now = some t) (at_ : s.phase p = was)
    (fit : fits now (s.lock.pc p)) (leaves : holdsChannel now = false) (out : listed now = listed was)
    (eq : hands now = hands was) (old : isClaimed was = false) (new : isClaimed now = false) : Coherent t := by
  simp only [CondVar.wchanUnlock,ite_none_right_eq_some,some.injEq] at did
  obtain ⟨mine,rfl⟩ := did
  have channel := coh.channel
  rw [mine] at channel
  subst at_
  exact coh.moved rfl coh.lock (fun _ _ => rfl) fit (channel.drop leaves) (coh.queue.keep out) eq old new

end

section
omit [DecidableEq Thread]

lemma Coherent.queued (coh : Coherent s) (locks : holdsChannel (s.phase p))
    (out : listed (s.phase p) = false) (mem : q ∈ s.wcThreads) : s.phase q = .asleep ∧ q ≠ p := by
  have listing := (coh.queue.mem q).mp mem
  have apart : q ≠ p := by
    intro eq
    rw [eq,out] at listing
    cases listing
  refine ⟨?_,apart⟩
  cases hit : s.phase q with
  | switching =>
    have both : holdsChannel (s.phase q) := by simp [hit]
    exact absurd (coh.channel.unique both locks) apart
  | asleep => rfl
  | _ => simp [hit] at listing

lemma targets_leftovers (all : Bool) (threads : List Thread) :
    targets all threads++leftovers all threads = threads := by
  cases all with
  | true => simp [targets,leftovers]
  | false => exact List.take_append_drop 1 threads

lemma targets_mem (mem : q ∈ targets all threads) : q ∈ threads := by
  rw [←targets_leftovers all threads]
  exact List.mem_append_left _ mem

end

section
variable (coh : Coherent s)
include coh

lemma Coherent.takeThreads (at_ : s.phase p = .taking all) : Coherent (takeThreads s p all) := by
  have locks : holdsChannel (s.phase p) := by simp [at_]
  have sleeper : ∀ q ∈ targets all s.wcThreads, s.phase q = .asleep ∧ q ≠ p :=
    fun q mem => coh.queued locks (by simp [at_]) (targets_mem mem)
  have apart : p ∉ targets all s.wcThreads := fun mem => (sleeper p mem).2 rfl
  have still : moveAll s.phase (targets all s.wcThreads) .claimed p = .taking all := (moveAll_other apart).trans at_
  have queue : Queued listed (targets all s.wcThreads++leftovers all s.wcThreads) s.phase := by
    rw [targets_leftovers]
    exact coh.queue
  obtain ⟨token,held⟩ := coh.held_signals
  refine ⟨coh.lock,fun q => ?_,?_,?_,?_,fun q => ?_⟩
  · change fits (update (moveAll s.phase (targets all s.wcThreads) .claimed) p _ q) (s.lock.pc q) = true
    have fit := coh.matched q
    by_cases self : q = p
    · subst self
      simpa [at_] using fit
    rw [update_of_ne self]
    by_cases mem : q ∈ targets all s.wcThreads
    · rw [moveAll_member mem]
      simpa [(sleeper q mem).1] using fit
    · rwa [moveAll_other mem]
  · apply Held.keep
    · apply coh.channel.keepAll
      intro q mem
      simp [(sleeper q mem).1]
    · simp [still]
  · apply Queued.keep
    · exact queue.leaveAll rfl
    · simp [still]
  · apply coh.claims.takeAll held hands_signals
    · simp [at_]
    · exact apart
    · simp [at_]
    · simp
    · rfl
    · rfl
    · simp
  change (hands (update (moveAll s.phase (targets all s.wcThreads) .claimed) p _ q)).Nodup
  by_cases self : q = p
  · rw [self,update_self]
    exact (List.nodup_append.mp queue.nodup).1
  rw [update_of_ne self]
  by_cases mem : q ∈ targets all s.wcThreads
  · rw [moveAll_member mem]
    exact List.nodup_nil
  rw [moveAll_other mem]
  exact coh.distinct q

lemma Coherent.runs (at_ : s.phase p = .running (target :: rest)) :
    Coherent ((s.goto target .woken).goto p (.running rest)) := by
  have did : isClaimed (s.phase target) := (coh.claims target).mpr ⟨p,by simp [at_]⟩
  have claimed : s.phase target = .claimed := by cases hit : s.phase target <;> simp_all
  have apart : target ≠ p := by
    intro eq
    rw [eq,at_] at claimed
    cases claimed
  have still : update s.phase target .woken p = .running (target :: rest) := (update_of_ne apart.symm _ _).trans at_
  have nodup := coh.distinct p
  rw [at_] at nodup
  obtain ⟨fresh,nodup⟩ := List.nodup_cons.mp nodup
  obtain ⟨token,held⟩ := coh.held_signals
  refine ⟨coh.lock,fun q => ?_,?_,?_,?_,fun q => ?_⟩
  · change fits (update (update s.phase target .woken) p _ q) (s.lock.pc q) = true
    have fit := coh.matched q
    by_cases self : q = p
    · subst self
      simpa [at_] using fit
    rw [update_of_ne self]
    by_cases here : q = target
    · rw [here] at fit
      rw [here,update_self]
      simpa [claimed] using fit
    · rwa [update_of_ne here]
  · apply Held.keep
    · exact coh.channel.keep (by simp [claimed])
    · simp [System.goto,still]
  · apply Queued.keep
    · exact coh.queue.keep (by simp [claimed])
    · simp [System.goto,still]
  · apply coh.claims.hand held hands_signals
    · simp [at_]
    · exact apart
    · simp
    · simp [at_]
    · rfl
    intro q
    by_cases here : q = target
    · simp [here,fresh]
    · simp [here,at_]
  change (hands (update (update s.phase target .woken) p _ q)).Nodup
  by_cases self : q = p
  · rw [self,update_self]
    exact nodup
  rw [update_of_ne self]
  by_cases here : q = target
  · rw [here,update_self]
    exact List.nodup_nil
  rw [update_of_ne here]
  exact coh.distinct q

lemma Coherent.onLock (did : onLock s (.run p) = some t)
    (inside : s.phase p = .outside ∨ s.phase p = .unlocking ∨ s.phase p = .relocking) : Coherent t := by
  obtain ⟨lock,ran,rfl⟩ := map_eq_some_iff.mp did
  exact coh.next_lock ran inside

lemma next_coherent (did : next s p = some t) : Coherent t := by
  have fit := coh.matched p
  cases at_ : s.phase p with
  | asleep | claimed => simp only [next,at_,reduceCtorEq] at did
  | outside =>
    simp only [next,at_] at did
    exact coh.onLock did (.inl at_)
  | waiting =>
    rw [at_] at fit
    simp only [next,at_] at did
    exact coh.wchanLock did at_ fit rfl rfl rfl rfl rfl
  | releasing =>
    simp only [next,at_] at did
    obtain ⟨u,call,rfl⟩ := map_eq_some_iff.mp did
    obtain ⟨lock,ran,rfl⟩ := map_eq_some_iff.mp call
    have safe := SleepLock.step_safe coh.lock ran
    obtain ⟨_,rfl⟩ := SleepLock.release_called coh.lock ran
    refine coh.moved at_ safe (fun q other => ?_) ?_ (coh.channel.keep ?_) (coh.queue.keep ?_) rfl rfl rfl
    · simp [SleepLock.System.goto,other]
    · simp [SleepLock.System.goto]
    · simp [at_]
    · simp [at_]
  | unlocking =>
    simp only [next,at_] at did
    split at did
    · rename_i ret
      cases did
      refine coh.moved at_ coh.lock (fun _ _ => rfl) ?_ (coh.channel.keep ?_) (coh.queue.join ?_ rfl) rfl rfl rfl
      · simp [System.goto,ret]
      · simp [at_]
      · simp [at_]
    · exact coh.onLock did (.inr (.inl at_))
  | switching =>
    rw [at_] at fit
    simp only [next,at_] at did
    exact coh.wchanUnlock did at_ fit rfl rfl rfl rfl rfl
  | woken =>
    simp only [next,at_] at did
    obtain ⟨u,call,rfl⟩ := map_eq_some_iff.mp did
    obtain ⟨lock,ran,rfl⟩ := map_eq_some_iff.mp call
    have safe := SleepLock.step_safe coh.lock ran
    obtain ⟨_,rfl⟩ := SleepLock.acquire_called coh.lock ran
    refine coh.moved at_ safe (fun q other => ?_) ?_ (coh.channel.keep ?_) (coh.queue.keep ?_) rfl rfl rfl
    · simp [SleepLock.System.goto,other]
    · simp [SleepLock.System.goto]
    · simp [at_]
    · simp [at_]
  | relocking =>
    simp only [next,at_] at did
    split at did
    · cases did
      exact coh.goto at_ rfl rfl rfl rfl rfl rfl
    · exact coh.onLock did (.inr (.inr at_))
  | waking all =>
    rw [at_] at fit
    simp only [next,at_] at did
    exact coh.wchanLock did at_ fit rfl rfl rfl rfl rfl
  | taking all =>
    simp only [next,at_,some.injEq] at did
    subst did
    exact coh.takeThreads at_
  | taken targets =>
    rw [at_] at fit
    simp only [next,at_] at did
    exact coh.wchanUnlock did at_ fit rfl rfl rfl rfl rfl
  | running targets =>
    cases targets with
    | nil =>
      simp only [next,at_,some.injEq] at did
      subst did
      exact coh.goto at_ rfl rfl rfl rfl rfl rfl
    | cons target rest =>
      simp only [next,at_,some.injEq] at did
      subst did
      exact coh.runs at_

end

omit [DecidableEq Thread] in
lemma Coherent.holding (coh : Coherent s) (place : s.lock.pc p = .idle ∨ s.lock.pc p = .holding)
    (mine : s.lock.lkHolder = some p) : s.lock.pc p = .holding := by
  have owner := (coh.lock.holder p).mp mine
  rcases place with at_ | at_
  · simp [at_] at owner
  · exact at_

lemma step_coherent (coh : Coherent s) (did : step s event = some t) : Coherent t := by
  cases event with
  | run p => exact next_coherent coh did
  | lockAcquire p =>
    simp only [step,idle,Bool.and_eq_true,Bool.or_eq_true,decide_eq_true_eq,ite_none_right_eq_some] at did
    obtain ⟨⟨at_,_⟩,call⟩ := did
    obtain ⟨lock,ran,rfl⟩ := map_eq_some_iff.mp call
    have safe := SleepLock.step_safe coh.lock ran
    obtain ⟨_,rfl⟩ := SleepLock.acquire_called coh.lock ran
    refine ⟨safe,fun q => ?_,coh.channel,coh.queue,coh.claims,coh.distinct⟩
    by_cases self : q = p
    · simp [self,at_]
    · simpa [SleepLock.System.goto,self] using coh.matched q
  | lockRelease p =>
    simp only [step,idle,Bool.and_eq_true,Bool.or_eq_true,decide_eq_true_eq,ite_none_right_eq_some] at did
    obtain ⟨⟨at_,_⟩,call⟩ := did
    obtain ⟨lock,ran,rfl⟩ := map_eq_some_iff.mp call
    have safe := SleepLock.step_safe coh.lock ran
    obtain ⟨_,rfl⟩ := SleepLock.release_called coh.lock ran
    refine ⟨safe,fun q => ?_,coh.channel,coh.queue,coh.claims,coh.distinct⟩
    by_cases self : q = p
    · simp [self,at_]
    · simpa [SleepLock.System.goto,self] using coh.matched q
  | cvWait p =>
    simp only [step,idle,Bool.and_eq_true,Bool.or_eq_true,decide_eq_true_eq,ite_none_right_eq_some,some.injEq] at did
    obtain ⟨⟨at_,place⟩,rfl⟩ := did
    refine coh.goto at_ ?_ rfl rfl rfl rfl rfl
    rcases place with place | place <;> simp [place]
  | cvSignal p | cvBroadcast p =>
    simp only [step,idle,lockDoIHold,Bool.and_eq_true,Bool.or_eq_true,decide_eq_true_eq,beq_iff_eq,
      ite_none_right_eq_some,some.injEq] at did
    obtain ⟨⟨⟨at_,place⟩,mine⟩,rfl⟩ := did
    refine coh.goto at_ ?_ rfl rfl rfl rfl rfl
    simp [coh.holding place mine]

lemma reached_coherent (path : Reached step Free created s) : Coherent s :=
  path.invariant Coherent created_coherent fun _ coh _ did => step_coherent coh did

section
omit [DecidableEq Thread]

lemma waits_same (coh : Coherent s) (safe : SleepLock.Safe t.lock) (holder : t.lock.lkHolder = s.lock.lkHolder)
    (phase : t.phase q = s.phase q) : waits t q = waits s q := by
  have owner : owns (t.lock.pc q) = owns (s.lock.pc q) := by
    rw [Bool.eq_iff_iff,←coh.lock.holder q,←safe.holder q,holder]
  unfold waits
  rw [phase,owner]

lemma listed_waits (listing : listed (s.phase q)) : waits s q := by
  unfold waits
  cases at_ : s.phase q <;> simp_all

end

section
variable (coh : Coherent s)
include coh

lemma waits_moved (safe : SleepLock.Safe t.lock) (holder : t.lock.lkHolder = s.lock.lkHolder)
    (phase : t.phase = update s.phase p now) (self : waits t p = waits s p) (q : Thread) : waits t q = waits s q := by
  by_cases here : q = p
  · rw [here,self]
  apply waits_same coh safe holder
  rw [phase,update_of_ne here]

lemma waits_step (did : step s event = some t) (holder : t.lock.lkHolder = s.lock.lkHolder)
    (working : ∀ p all, event = .run p → s.phase p ≠ .taking all) : ∀ q, waits t q = waits s q := by
  have after := step_coherent coh did
  cases event with
  | lockAcquire p | lockRelease p =>
    simp only [step,ite_none_right_eq_some] at did
    obtain ⟨lock,_,rfl⟩ := map_eq_some_iff.mp did.2
    exact fun q => waits_same coh after.lock holder rfl
  | cvWait p | cvSignal p | cvBroadcast p =>
    simp only [step,idle,Bool.and_eq_true,decide_eq_true_eq,ite_none_right_eq_some,some.injEq] at did
    obtain ⟨place,rfl⟩ := did
    refine waits_moved coh coh.lock rfl rfl ?_
    simp [waits,System.goto,place]
  | run p =>
    have busy := fun all => working p all rfl
    simp only [step] at did
    cases at_ : s.phase p with
    | asleep | claimed => simp only [next,at_,reduceCtorEq] at did
    | taking all => exact absurd at_ (busy all)
    | outside =>
      simp only [next,at_] at did
      obtain ⟨lock,_,rfl⟩ := map_eq_some_iff.mp did
      exact fun q => waits_same coh after.lock holder rfl
    | waiting | waking =>
      simp only [next,at_,wchanLock,ite_none_right_eq_some,some.injEq] at did
      obtain ⟨_,rfl⟩ := did
      refine waits_moved coh coh.lock rfl rfl ?_
      simp [waits,System.goto,at_]
    | switching | taken =>
      simp only [next,at_,wchanUnlock,ite_none_right_eq_some,some.injEq] at did
      obtain ⟨_,rfl⟩ := did
      refine waits_moved coh coh.lock rfl rfl ?_
      simp [waits,System.goto,at_]
    | releasing =>
      simp only [next,at_] at did
      obtain ⟨u,call,rfl⟩ := map_eq_some_iff.mp did
      obtain ⟨lock,ran,rfl⟩ := map_eq_some_iff.mp call
      obtain ⟨_,rfl⟩ := SleepLock.release_called coh.lock ran
      refine waits_moved coh after.lock rfl rfl ?_
      simp [waits,System.goto,SleepLock.System.goto,at_]
    | woken =>
      simp only [next,at_] at did
      obtain ⟨u,call,rfl⟩ := map_eq_some_iff.mp did
      obtain ⟨lock,ran,rfl⟩ := map_eq_some_iff.mp call
      refine waits_moved coh after.lock holder rfl ?_
      simp [waits,System.goto,at_]
    | unlocking =>
      simp only [next,at_] at did
      split at did
      · rename_i ret
        cases did
        refine waits_moved coh coh.lock rfl rfl ?_
        simp [waits,System.goto,at_,ret]
      obtain ⟨lock,_,rfl⟩ := map_eq_some_iff.mp did
      exact fun q => waits_same coh after.lock holder rfl
    | relocking =>
      simp only [next,at_] at did
      split at did
      · cases did
        refine waits_moved coh coh.lock rfl rfl ?_
        simp [waits,System.goto,at_]
      obtain ⟨lock,_,rfl⟩ := map_eq_some_iff.mp did
      exact fun q => waits_same coh after.lock holder rfl
    | running targets =>
      cases targets with
      | nil =>
        simp only [next,at_,some.injEq] at did
        subst did
        refine waits_moved coh coh.lock rfl rfl ?_
        simp [waits,System.goto,at_]
      | cons target rest =>
        simp only [next,at_,some.injEq] at did
        subst did
        have taken : isClaimed (s.phase target) := (coh.claims target).mpr ⟨p,by simp [at_]⟩
        have claimed : s.phase target = .claimed := by cases hit : s.phase target <;> simp_all
        intro q
        by_cases self : q = p
        · simp [waits,System.goto,self,at_]
        by_cases here : q = target
        · subst here
          simp [waits,System.goto,self,claimed]
        refine waits_same coh coh.lock rfl ?_
        simp [System.goto,self,here]

lemma waits_taken (at_ : s.phase p = .taking all) :
    (∀ q, waits (takeThreads s p all) q → waits s q) ∧ (all → ∀ q, waits (takeThreads s p all) q = false) ∧
    ((∃ q, waits s q) → ∃ q, waits s q ∧ waits (takeThreads s p all) q = false) := by
  have locks : holdsChannel (s.phase p) := by simp [at_]
  have queued : ∀ q, waits s q → q ∈ s.wcThreads := by
    intro q waiting
    rw [coh.queue.mem q]
    have unlocked : holdsChannel (s.phase q) → q = p := fun both => coh.channel.unique both locks
    unfold waits at waiting
    cases hit : s.phase q <;> simp_all
  have kept : ∀ q, q ∉ targets all s.wcThreads → q ≠ p → waits (takeThreads s p all) q = waits s q := by
    intro q outside ne
    refine waits_same coh coh.lock rfl ?_
    simp [takeThreads,ne,moveAll_other outside]
  have self : waits (takeThreads s p all) p = false := by simp [waits,takeThreads]
  have gone : ∀ q ∈ targets all s.wcThreads, waits (takeThreads s p all) q = false := by
    intro q mem
    by_cases eq : q = p
    · rw [eq,self]
    · simp [waits,takeThreads,eq,moveAll_member mem]
  refine ⟨fun q still => ?_,fun every q => ?_,fun any => ?_⟩
  · by_cases eq : q = p
    · rw [eq,self] at still
      cases still
    by_cases mem : q ∈ targets all s.wcThreads
    · rw [gone q mem] at still
      cases still
    · rwa [←kept q mem eq]
  · by_cases eq : q = p
    · rw [eq,self]
    by_cases mem : q ∈ targets all s.wcThreads
    · exact gone q mem
    rw [kept q mem eq,←Bool.not_eq_true]
    intro waiting
    subst every
    exact mem (queued q waiting)
  obtain ⟨q,waiting⟩ := any
  cases threads : s.wcThreads with
  | nil =>
    have mem := queued q waiting
    rw [threads] at mem
    cases mem
  | cons head rest =>
    have mem : head ∈ targets all s.wcThreads := by cases all <;> simp [targets,threads]
    have listing := (coh.queue.mem head).mp (targets_mem mem)
    exact ⟨head,listed_waits listing,gone head mem⟩

lemma waits_shrinks (did : step s event = some t)
    (holder : t.lock.lkHolder = s.lock.lkHolder) (q : Thread) (waiting : waits t q) : waits s q := by
  by_cases takes : ∃ p all, event = .run p ∧ s.phase p = .taking all
  · obtain ⟨p,all,rfl,at_⟩ := takes
    simp only [step,next,at_,some.injEq] at did
    subst did
    exact (waits_taken coh at_).1 q waiting
  rw [←waits_step coh did holder fun p all runs at_ => takes ⟨p,all,runs,at_⟩]
  exact waiting

lemma held_waits (path : Reached step (fun x _ => x.lock.lkHolder = some S) s t)
    (holder : t.lock.lkHolder = some S) : Coherent t ∧ ∀ q, waits t q → waits s q := by
  induction path with
  | initial => exact ⟨coh,fun _ waiting => waiting⟩
  | next _ may did ih =>
    obtain ⟨mid,earlier⟩ := ih may
    refine ⟨step_coherent mid did,fun q waiting => earlier q ?_⟩
    exact waits_shrinks mid did (holder.trans may.symm) q waiting

lemma next_holder (mine : s.lock.lkHolder = some S)
    (at_ : s.lock.pc S = .holding) (did : SleepLock.next s.lock p = some lock) : lock.lkHolder = s.lock.lkHolder := by
  rcases (SleepLock.next_stepped coh.lock did).holder with eq | ⟨assigning,_⟩ | clearing
  · exact eq
  · have free := (coh.lock.tested p).assigning assigning
    rw [mine] at free
    cases free
  have owner := (coh.lock.holder p).mpr (by rw [clearing]; rfl)
  rw [mine] at owner
  cases owner
  rw [at_] at clearing
  cases clearing

lemma signal_holder (signalling : signals (s.phase S))
    (did : step s event = some t) : t.lock.lkHolder = s.lock.lkHolder := by
  have mine := coh.signaller signalling
  have at_ : s.lock.pc S = .holding := by
    have fit := coh.matched S
    cases phase : s.phase S <;> simp_all <;> cases pc : s.lock.pc S <;> simp_all
  have ran : ∀ {p u}, onLock s (.run p) = some u → u.lock.lkHolder = s.lock.lkHolder := by
    intro p u ran
    obtain ⟨lock,stepped,rfl⟩ := map_eq_some_iff.mp ran
    exact next_holder coh mine at_ stepped
  have released : ∀ {p u}, onLock s (.lockRelease p) = some u → u.lock.lkHolder = s.lock.lkHolder := by
    intro p u call
    obtain ⟨lock,stepped,rfl⟩ := map_eq_some_iff.mp call
    obtain ⟨_,rfl⟩ := SleepLock.release_called coh.lock stepped
    rfl
  have acquired : ∀ {p u}, onLock s (.lockAcquire p) = some u → u.lock.lkHolder = s.lock.lkHolder := by
    intro p u call
    obtain ⟨lock,stepped,rfl⟩ := map_eq_some_iff.mp call
    obtain ⟨_,rfl⟩ := SleepLock.acquire_called coh.lock stepped
    rfl
  cases event with
  | lockAcquire p =>
    simp only [step,ite_none_right_eq_some] at did
    exact acquired did.2
  | lockRelease p =>
    simp only [step,ite_none_right_eq_some] at did
    exact released did.2
  | cvWait p | cvSignal p | cvBroadcast p =>
    simp only [step,ite_none_right_eq_some,some.injEq] at did
    rw [←did.2]
    rfl
  | run p =>
    simp only [step] at did
    cases phase : s.phase p with
    | asleep | claimed => simp only [next,phase,reduceCtorEq] at did
    | outside =>
      simp only [next,phase] at did
      exact ran did
    | waiting | waking =>
      simp only [next,phase,wchanLock,ite_none_right_eq_some,some.injEq] at did
      rw [←did.2]
      rfl
    | switching | taken =>
      simp only [next,phase,wchanUnlock,ite_none_right_eq_some,some.injEq] at did
      rw [←did.2]
      rfl
    | releasing =>
      simp only [next,phase] at did
      obtain ⟨u,call,rfl⟩ := map_eq_some_iff.mp did
      change u.lock.lkHolder = _
      exact released call
    | woken =>
      simp only [next,phase] at did
      obtain ⟨u,call,rfl⟩ := map_eq_some_iff.mp did
      change u.lock.lkHolder = _
      exact acquired call
    | unlocking | relocking =>
      simp only [next,phase] at did
      split at did
      · cases did
        rfl
      · exact ran did
    | taking all =>
      simp only [next,phase,some.injEq] at did
      rw [←did]
      rfl
    | running targets =>
      cases targets with
      | nil | cons =>
        simp only [next,phase,some.injEq] at did
        rw [←did]
        rfl

lemma signal_phase (signalling : signals (s.phase S))
    (ne : event ≠ .run S) (did : step s event = some t) : t.phase S = s.phase S := by
  have inside : s.phase S ≠ .outside := by
    intro out
    rw [out] at signalling
    cases signalling
  have away : ∀ {p now}, p ≠ S → update s.phase p now S = s.phase S := fun apart => update_of_ne apart.symm _ _
  cases event with
  | lockAcquire p | lockRelease p =>
    simp only [step,ite_none_right_eq_some] at did
    obtain ⟨lock,_,rfl⟩ := map_eq_some_iff.mp did.2
    rfl
  | cvWait p | cvSignal p | cvBroadcast p =>
    simp only [step,idle,Bool.and_eq_true,decide_eq_true_eq,ite_none_right_eq_some,some.injEq] at did
    obtain ⟨place,rfl⟩ := did
    apply away
    rintro rfl
    simp_all
  | run p =>
    have apart : p ≠ S := fun eq => ne (congrArg Event.run eq)
    have alone : signals (s.phase p) ≠ true := fun also =>
      apart (some.inj ((coh.signaller also).symm.trans (coh.signaller signalling)))
    simp only [step] at did
    cases phase : s.phase p with
    | asleep | claimed => simp only [next,phase,reduceCtorEq] at did
    | waking | taking | taken | running => simp [phase] at alone
    | outside =>
      simp only [next,phase] at did
      obtain ⟨lock,_,rfl⟩ := map_eq_some_iff.mp did
      rfl
    | waiting =>
      simp only [next,phase,wchanLock,ite_none_right_eq_some,some.injEq] at did
      rw [←did.2]
      exact away apart
    | switching =>
      simp only [next,phase,wchanUnlock,ite_none_right_eq_some,some.injEq] at did
      rw [←did.2]
      exact away apart
    | releasing | woken =>
      simp only [next,phase] at did
      obtain ⟨u,call,rfl⟩ := map_eq_some_iff.mp did
      obtain ⟨lock,_,rfl⟩ := map_eq_some_iff.mp call
      exact away apart
    | unlocking | relocking =>
      simp only [next,phase] at did
      split at did
      · cases did
        exact away apart
      obtain ⟨lock,_,rfl⟩ := map_eq_some_iff.mp did
      rfl

end

-- What has become of those who waited when cv_signal or cv_broadcast was called.
structure Woken (t : System Thread) (all : Bool) (w : System Thread) : Prop where
  all : all = true → ∀ q, waits w q = false
  one : (∃ q, waits t q = true) → ∃ q, waits t q = true ∧ waits w q = false

def Progress (t : System Thread) (S : Thread) (all : Bool) (x : System Thread) : Prop :=
  match x.phase S with
  | .waking kind | .taking kind => kind = all ∧ ∀ q, waits x q = waits t q
  | .taken _ | .running _ | .outside => Woken t all x
  | _ => False

section
omit [DecidableEq Thread]

lemma Woken.congr {all : Bool} (woken : Woken t all x) (eq : ∀ q, waits y q = waits x q) : Woken t all y := by
  refine ⟨fun every q => ?_,fun waiting => ?_⟩
  · rw [eq]
    exact woken.all every q
  obtain ⟨q,before,after⟩ := woken.one waiting
  exact ⟨q,before,by rw [eq,after]⟩

lemma Progress.congr {y : System Thread} (progress : Progress t S all x)
    (phase : y.phase S = x.phase S) (eq : ∀ q, waits y q = waits x q) : Progress t S all y := by
  unfold Progress at *
  rw [phase]
  cases at_ : x.phase S with
  | waking | taking =>
    simp only [at_] at progress ⊢
    exact ⟨progress.1,fun q => (eq q).trans (progress.2 q)⟩
  | taken | running | outside =>
    simp only [at_] at progress ⊢
    exact progress.congr eq
  | _ => simp [at_] at progress

end

lemma progress_step (coh : Coherent x) (signalling : signals (x.phase S)) (progress : Progress t S all x)
    (did : step x event = some y) : Progress t S all y := by
  have holder := signal_holder coh signalling did
  have eq : (∀ kind, x.phase S = .taking kind → event ≠ .run S) → ∀ q, waits y q = waits x q := by
    intro busy
    refine waits_step coh did holder fun p kind runs at_ => ?_
    have also : signals (x.phase p) := by simp [at_]
    have self : p = S := some.inj ((coh.signaller also).symm.trans (coh.signaller signalling))
    exact busy kind (self ▸ at_) (self ▸ runs)
  by_cases own : event = .run S
  · subst own
    cases at_ : x.phase S with
    | waking kind =>
      have kept := eq fun _ taking => by rw [at_] at taking; cases taking
      simp only [step,next,at_,wchanLock,ite_none_right_eq_some,some.injEq] at did
      obtain ⟨_,rfl⟩ := did
      simp only [Progress,at_] at progress
      simp only [Progress,System.goto,update_self]
      exact ⟨progress.1,fun q => (kept q).trans (progress.2 q)⟩
    | taking kind =>
      simp only [step,next,at_,some.injEq] at did
      subst did
      simp only [Progress,at_] at progress
      obtain ⟨rfl,before⟩ := progress
      obtain ⟨_,every,some_⟩ := waits_taken coh at_
      simp only [Progress,takeThreads,update_self]
      refine ⟨every,fun any => ?_⟩
      obtain ⟨q,waiting⟩ := any
      obtain ⟨w,waited,gone⟩ := some_ ⟨q,(before q).trans waiting⟩
      exact ⟨w,(before w).symm.trans waited,gone⟩
    | taken targets =>
      have kept := eq fun _ taking => by rw [at_] at taking; cases taking
      simp only [step,next,at_,wchanUnlock,ite_none_right_eq_some,some.injEq] at did
      obtain ⟨_,rfl⟩ := did
      simp only [Progress,at_] at progress
      simp only [Progress,System.goto,update_self]
      exact progress.congr kept
    | running targets =>
      have kept := eq fun _ taking => by rw [at_] at taking; cases taking
      simp only [Progress,at_] at progress
      cases targets with
      | nil | cons =>
        simp only [step,next,at_,some.injEq] at did
        subst did
        simp only [Progress,System.goto,update_self]
        exact progress.congr kept
    | _ => simp [at_] at signalling
  · exact progress.congr (signal_phase coh signalling own did) (eq fun _ _ => own)

lemma progress_reached (coh : Coherent u) (path : Reached step (fun x _ => signals (x.phase S)) u w)
    (start : Progress t S all u) : Coherent w ∧ Progress t S all w := by
  induction path with
  | initial => exact ⟨coh,start⟩
  | next _ signalling did ih =>
    obtain ⟨mid,progress⟩ := ih
    exact ⟨step_coherent mid did,progress_step mid signalling progress did⟩

omit [DecidableEq Thread] in
lemma Coherent.off_channel (coh : Coherent s) (awake : waits s q = false) : q ∉ s.wcThreads := by
  intro mem
  have waiting := listed_waits ((coh.queue.mem q).mp mem)
  rw [awake] at waiting
  cases waiting

def signalCall (all : Bool) (S : Thread) : Event Thread := if all then .cvBroadcast S else .cvSignal S

lemma signal_called (did : step s (signalCall all S) = some t) :
    s.lock.lkHolder = some S ∧ t = s.goto S (.waking all) ∧ s.phase S = .outside := by
  cases all with
  | true | false =>
    simp only [signalCall,if_true,if_false,Bool.false_eq_true,step,idle,lockDoIHold,Bool.and_eq_true,decide_eq_true_eq,
      beq_iff_eq,ite_none_right_eq_some,some.injEq] at did
    exact ⟨did.1.2,did.2.symm,did.1.1.1⟩

theorem condition_variable (path : Reached step Free created s) :
    (∀ S a t u w all, s.lock.pc S = .assigning → step s (.run S) = some a →
      Reached step (fun x _ => x.lock.lkHolder = some S) a t → step t (signalCall all S) = some u →
      Reached step (fun x _ => signals (x.phase S) = true) u w → w.phase S = .outside →
      ((∃ q, waits a q = true ∧ waits t q = true) →
        ∃ q, waits a q = true ∧ waits t q = true ∧ waits w q = false ∧ q ∉ w.wcThreads) ∧
      (all = true → ∀ q, waits w q = false ∧ q ∉ w.wcThreads)) ∧
    (∀ p t, s.phase p = .relocking → step s (.run p) = some t → t.phase p = .outside →
      lockDoIHold t.lock p = true) := by
  have coherent := reached_coherent path
  refine ⟨?_,?_⟩
  · intro S a t u w all _ acquired held called worked returned
    have start := step_coherent coherent acquired
    obtain ⟨mine,rfl,_⟩ := signal_called called
    obtain ⟨middle,earlier⟩ := held_waits start held mine
    have begun : Progress t S all (t.goto S (.waking all)) := by
      simp only [Progress,System.goto,update_self]
      refine ⟨trivial,?_⟩
      have working : ∀ p kind, signalCall all S = .run p → t.phase p ≠ .taking kind := by
        intro p kind runs
        cases all <;> cases runs
      exact waits_step middle called rfl working
    obtain ⟨final,progress⟩ := progress_reached (step_coherent middle called) worked begun
    simp only [Progress,returned] at progress
    refine ⟨fun ⟨q,_,waiting⟩ => ?_,fun every q => ?_⟩
    · obtain ⟨woken,before,gone⟩ := progress.one ⟨q,waiting⟩
      exact ⟨woken,earlier woken before,before,gone,final.off_channel gone⟩
    · exact ⟨progress.all every q,final.off_channel (progress.all every q)⟩
  intro p t at_ did returned
  simp only [step,next,at_] at did
  split at did
  · rename_i holding
    cases did
    have mine := (coherent.lock.holder p).mpr (by rw [holding]; rfl)
    simp [lockDoIHold,System.goto,mine]
  obtain ⟨lock,_,rfl⟩ := map_eq_some_iff.mp did
  rw [at_] at returned
  cases returned

def waitEvents (p : Fin 3) : List (Event (Fin 3)) :=
  .lockAcquire p :: List.replicate 4 (.run p)++.cvWait p :: List.replicate 11 (.run p)

local instance three : NeZero 3 := ⟨by decide⟩

def signalledRun : Option (System (Fin 3) × System (Fin 3) × System (Fin 3) × System (Fin 3)) :=
  (run step created (waitEvents 0++waitEvents 1++.lockAcquire 2 :: List.replicate 2 (.run 2))).bind fun s =>
  (step s (.run 2)).bind fun a =>
  (run (guarded (fun x _ => x.lock.lkHolder == some 2) step) a [.run 2]).bind fun t =>
  (step t (signalCall false 2)).bind fun u =>
  (run (guarded (fun x _ => signals (x.phase 2)) step) u (List.replicate 5 (.run 2))).map fun w => (s,a,t,w)

theorem condition_variable_signalled : ∃ a w : System (Fin 3), waits a 0 = true ∧ waits a 1 = true ∧
    ∃ q, waits a q = true ∧ waits w q = false ∧ q ∉ w.wcThreads := by
  have ran : signalledRun.map (fun (s,a,t,w) => (s.lock.pc 2,waits a 0,waits a 1,waits t 0,w.phase 2)) =
      some (.assigning,true,true,true,.outside) := by decide +kernel
  obtain ⟨⟨s,a,t,w⟩,reached,shown⟩ := map_eq_some_iff.mp ran
  simp only [Prod.mk.injEq] at shown
  obtain ⟨before,first,second,still,returned⟩ := shown
  obtain ⟨s',prepared,rest⟩ := bind_eq_some_iff.mp reached
  obtain ⟨a',acquired,rest⟩ := bind_eq_some_iff.mp rest
  obtain ⟨t',held,rest⟩ := bind_eq_some_iff.mp rest
  obtain ⟨u,called,rest⟩ := bind_eq_some_iff.mp rest
  obtain ⟨w',worked,same⟩ := map_eq_some_iff.mp rest
  simp only [Prod.mk.injEq] at same
  obtain ⟨rfl,rfl,rfl,rfl⟩ := same
  have law := condition_variable (run_reached prepared)
  obtain ⟨q,waited,_,gone,off⟩ := (law.1 2 a' t' u w' false before acquired
    (run_permitted (fun _ holds => beq_iff_eq.mp holds) .initial held) called
    (run_permitted (fun _ signalling => signalling) .initial worked) returned).1 ⟨0,first,still⟩
  exact ⟨a',w',first,second,q,waited,gone,off⟩
end ToyOS.CondVar
