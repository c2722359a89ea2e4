import ToyOS.Library.Outcome

namespace ToyOS.Nesting
open Outcome

-- A lock that can be entered again by its holder.
structure Brackets (L : Type) where
  enter : L → L
  leave : L → Option L
  leave_enter : ∀ l, leave (enter l) = some l

structure Locked (L σ : Type) where
  lock : L
  world : σ

variable {L σ τ ε α β : Type}

def free (n : EStateM ε σ α) : EStateM ε (Locked L σ) α := fun w =>
  match n w.world with
  | .ok a t => .ok a ⟨w.lock,t⟩
  | .error e t => .error e ⟨w.lock,t⟩

def within (part : τ → σ) (put : τ → σ → τ) (m : EStateM ε (Locked L σ) α) : EStateM ε (Locked L τ) α := fun w =>
  match m ⟨w.lock,part w.world⟩ with
  | .ok a t => .ok a ⟨t.lock,put w.world t.world⟩
  | .error e t => .error e ⟨t.lock,put w.world t.world⟩

-- `stop` is the failure of a computation that does not return.
variable (b : Brackets L) (stop : ε)

def acquire : EStateM ε (Locked L σ) PUnit := modify fun w => {w with lock := b.enter w.lock}

def release : EStateM ε (Locked L σ) PUnit := fun w =>
  match b.leave w.lock with
  | some l => .ok ⟨⟩ {w with lock := l}
  | none => .error stop w

def Runs (d done failed : Nat) (m : EStateM ε (Locked L σ) α) (n : EStateM ε σ α) : Prop :=
  ∀ l s, match n s with
    | .ok a t => m ⟨b.enter^[d] l,s⟩ = .ok a ⟨b.enter^[done] l,t⟩
    | .error e t => (e = stop ∧ ∃ u, m ⟨b.enter^[d] l,s⟩ = .error e u) ∨
        m ⟨b.enter^[d] l,s⟩ = .error e ⟨b.enter^[failed] l,t⟩

-- How many levels of the lock are lost on the way from one state to another.
structure Ledger (σ : Type) where
  owes : σ → σ → Nat → Prop
  refl : ∀ s, owes s s 0
  trans : ∀ {s t u m n}, owes s t m → owes t u n → owes s u (n+m)

def Raised (debt : Ledger σ) (l : L) (s : σ) (d : Nat) (t : Locked L σ) : Prop :=
  ∃ n, debt.owes s t.world n ∧ t.lock = b.enter^[d] (b.enter^[n] l)

def Moves (debt : Ledger σ) (d done failed : Nat) (m : EStateM ε (Locked L σ) α) : Prop :=
  ∀ l s, Ends (m ⟨b.enter^[d] l,s⟩) (fun _ t => Raised b debt l s done t) fun e t => e = stop ∨
    Raised b debt l s failed t

variable {b stop}
variable {d done last failed : Nat} {m : EStateM ε (Locked L σ) α} {n : EStateM ε σ α}
  {f : α → EStateM ε (Locked L σ) β} {g : α → EStateM ε σ β} {debt : Ledger σ}

lemma bind_ok {m : EStateM ε σ α} {f : α → EStateM ε σ β} (ran : m s = .ok a t) : (m >>= f) s = f a t := by
  simp only [bind,EStateM.bind,ran]

lemma bind_error {m : EStateM ε σ α} {f : α → EStateM ε σ β} (ran : m s = .error e t) : (m >>= f) s = .error e t := by
  simp only [bind,EStateM.bind,ran]

lemma runs_free (n : EStateM ε σ α) : Runs b stop d d d (free n) n := by
  intro l s
  unfold free
  cases n s with
  | ok a t => rfl
  | error e t => exact .inr rfl

lemma runs_pure (a : α) : Runs b stop d d failed (pure a : EStateM ε (Locked L σ) α) (pure a : EStateM ε σ α) :=
  fun _ _ => rfl

lemma runs_throw (e : ε) : Runs b stop d done d (throw e : EStateM ε (Locked L σ) α) (throw e : EStateM ε σ α) :=
  fun _ _ => .inr rfl

lemma runs_stop : Runs b stop d done failed (throw stop : EStateM ε (Locked L σ) α) (throw stop : EStateM ε σ α) :=
  fun _ _ => .inl ⟨rfl,_,rfl⟩

lemma Runs.anywhere (runs : Runs b stop 0 0 0 m n) : Runs b stop d d d m n := fun l s => runs (b.enter^[d] l) s

lemma Runs.sure (runs : Runs b stop d done last m n) (never : ∀ s e t, n s = .error e t → e = stop) :
    Runs b stop d done failed m n := by
  intro l s
  have old := runs l s
  cases ran : n s with
  | ok a t =>
    rw [ran] at old
    exact old
  | error e t =>
    rw [ran] at old
    cases old with
    | inl stopped => exact .inl stopped
    | inr eq => exact .inl ⟨never s e t ran,_,eq⟩

lemma Runs.bind (first : Runs b stop d done failed m n) (rest : ∀ a, Runs b stop done last failed (f a) (g a)) :
    Runs b stop d last failed (m >>= f) (n >>= g) := by
  intro l s
  have one := first l s
  cases ran : n s with
  | ok a t =>
    rw [ran] at one
    rw [bind_ok ran,bind_ok one]
    exact rest a l t
  | error e t =>
    rw [ran] at one
    rw [bind_error ran]
    cases one with
    | inl stopped =>
      obtain ⟨final,u,stopped⟩ := stopped
      exact .inl ⟨final,u,bind_error stopped⟩
    | inr eq => exact .inr (bind_error eq)

lemma release_enter (l : L) (s : σ) : release b stop ⟨b.enter^[d+1] l,s⟩ = .ok ⟨⟩ ⟨b.enter^[d] l,s⟩ := by
  unfold release
  simp only [Function.iterate_succ_apply',b.leave_enter]

lemma Runs.acquire (rest : Runs b stop (d+1) done failed m n) :
    Runs b stop d done failed (Nesting.acquire b >>= fun _ => m) n := by
  intro l s
  have entered : Nesting.acquire b ⟨b.enter^[d] l,s⟩ =
      (.ok ⟨⟩ ⟨b.enter^[d+1] l,s⟩ : EStateM.Result ε (Locked L σ) PUnit) := by
    rw [Function.iterate_succ_apply']
    rfl
  rw [bind_ok entered]
  exact rest l s

lemma Runs.release (rest : Runs b stop d done failed m n) :
    Runs b stop (d+1) done failed (Nesting.release b stop >>= fun _ => m) n := by
  intro l s
  rw [bind_ok (release_enter l s)]
  exact rest l s

lemma runs_release : Runs b stop (d+1) d failed (Nesting.release b stop) (pure ⟨⟩ : EStateM ε σ PUnit) :=
  fun l s => release_enter l s

lemma raised_same (none_ : debt.owes s t 0) : Raised b debt l s d ⟨b.enter^[d] l,t⟩ := ⟨0,none_,rfl⟩

lemma Runs.moves (runs : Runs b stop d done failed m n) {part : τ → σ} {put : τ → σ → τ} {debt : Ledger τ}
    (steady : ∀ w t, debt.owes w (put w t) 0) : Moves b stop debt d done failed (within part put m) := by
  intro l w
  have one := runs l (part w)
  unfold within
  cases ran : n (part w) with
  | ok a t =>
    rw [ran] at one
    simp only [one]
    exact raised_same (steady w t)
  | error e t =>
    rw [ran] at one
    cases one with
    | inl stopped =>
      obtain ⟨final,u,stopped⟩ := stopped
      simp only [stopped]
      exact .inl final
    | inr failing =>
      simp only [failing]
      exact .inr (raised_same (steady w t))

lemma raised_refl (l : L) (s : σ) : Raised b debt l s d ⟨b.enter^[d] l,s⟩ := raised_same (debt.refl s)

lemma Raised.trans {levels : Nat} (one : debt.owes s t levels) (rest : Raised b debt (b.enter^[levels] l) t d u) :
    Raised b debt l s d u := by
  obtain ⟨more,two,lock⟩ := rest
  refine ⟨more+levels,debt.trans one two,?_⟩
  rw [lock,Function.iterate_add_apply]

lemma moves_free (kept : ∀ s, Ends (n s) (fun _ t => debt.owes s t 0) fun e t => e = stop ∨ debt.owes s t 0) :
    Moves b stop debt d d d (free n) := by
  intro l s
  have steady := kept s
  unfold free
  cases ran : n s with
  | ok a t => exact raised_same (steady.ok ran)
  | error e t =>
    cases steady.failed ran with
    | inl stopped => exact .inl stopped
    | inr eq => exact .inr (raised_same eq)

lemma moves_sure (kept : ∀ s, Ends (n s) (fun _ t => debt.owes s t 0) fun e _ => e = stop) :
    Moves b stop debt d d failed (free n) := by
  intro l s
  have steady := kept s
  unfold free
  cases ran : n s with
  | ok a t => exact raised_same (steady.ok ran)
  | error e t => exact .inl (steady.failed ran)

lemma moves_pure (a : α) : Moves b stop debt d d failed (pure a : EStateM ε (Locked L σ) α) :=
  fun l s => raised_refl l s

lemma moves_throw (e : ε) : Moves b stop debt d done d (throw e : EStateM ε (Locked L σ) α) :=
  fun l s => .inr (raised_refl l s)

lemma moves_stop : Moves b stop debt d done failed (throw stop : EStateM ε (Locked L σ) α) :=
  fun _ _ => .inl rfl

lemma Moves.bind (one : Moves b stop debt d done failed m) (rest : ∀ a, Moves b stop debt done last failed (f a)) :
    Moves b stop debt d last failed (m >>= f) := by
  intro l s
  refine ends_bind (one l s) fun a t raised => ?_
  obtain ⟨n,owes,lock⟩ := raised
  have next := rest a (b.enter^[n] l) t.world
  rw [←lock] at next
  exact next.mono (fun _ u => Raised.trans owes) fun _ u ran => ran.imp_right (Raised.trans owes)

lemma moves_acquire : Moves b stop debt d (d+1) failed (Nesting.acquire b : EStateM ε (Locked L σ) PUnit) := by
  intro l s
  refine ⟨0,debt.refl s,?_⟩
  rw [Function.iterate_succ_apply']
  rfl

lemma moves_release : Moves b stop debt (d+1) d failed (Nesting.release b stop : EStateM ε (Locked L σ) PUnit) := by
  intro l s
  rw [release_enter]
  exact raised_refl l s
end ToyOS.Nesting
