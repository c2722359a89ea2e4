import Mathlib

namespace ToyOS.Outcome

-- Rules for computations on a state that end in a result or in a failure. `Ends` is about one that has run from one
-- state.
variable {ε σ α β : Type}

def Ends (outcome : EStateM.Result ε σ α) (Q : α → σ → Prop) (E : ε → σ → Prop) : Prop :=
  match outcome with
  | .ok a t => Q a t
  | .error e t => E e t

variable {Q Q' : α → σ → Prop} {R : β → σ → Prop} {E E' : ε → σ → Prop} {s : σ}

lemma Ends.mono (ends : Ends outcome Q E)
    (res : ∀ a t, Q a t → Q' a t) (failure : ∀ e t, E e t → E' e t) : Ends outcome Q' E' := by
  cases outcome with
  | ok a t => exact res a t ends
  | error e t => exact failure e t ends

lemma Ends.imp (ends : Ends outcome Q E) (res : ∀ a t, Q a t → Q' a t) : Ends outcome Q' E :=
  ends.mono res fun _ _ error => error

lemma Ends.imp_error (ends : Ends outcome Q E) (failure : ∀ e t, E e t → E' e t) : Ends outcome Q E' :=
  ends.mono (fun _ _ done => done) failure

lemma Ends.ok (ends : Ends outcome Q E) (eq : outcome = .ok a t) : Q a t := by
  subst eq
  exact ends

lemma Ends.failed (ends : Ends outcome Q E) (eq : outcome = .error e t) : E e t := by
  subst eq
  exact ends

lemma ends_pure (holds : Q a s) : Ends ((pure a : EStateM ε σ α) s) Q E := holds
lemma ends_throw (holds : E e s) : Ends ((throw e : EStateM ε σ α) s) Q E := holds
lemma ends_set {Q : PUnit → σ → Prop} (holds : Q ⟨⟩ t) : Ends ((set t : EStateM ε σ PUnit) s) Q E := holds

lemma ends_modify {Q : PUnit → σ → Prop} {f : σ → σ} (holds : Q ⟨⟩ (f s)) :
    Ends ((modify f : EStateM ε σ PUnit) s) Q E := holds

lemma ends_bind {f : α → EStateM ε σ β} (one : Ends (m s) Q E)
    (rest : ∀ a t, Q a t → Ends (f a t) R E) : Ends ((m >>= f) s) R E := by
  change Ends (match m s with | .ok a t => f a t | .error e t => .error e t) R E
  cases ran : m s with
  | ok a t => exact rest a t (one.ok ran)
  | error e t => exact one.failed ran

lemma ends_bind_get {f : σ → EStateM ε σ β} (rest : Ends (f s s) R E) : Ends ((get >>= f) s) R E := rest

lemma ends_bind_set {f : PUnit → EStateM ε σ β} (rest : Ends (f ⟨⟩ t) R E) : Ends ((set t >>= f) s) R E :=
  rest

lemma ends_bind_modify {f : PUnit → EStateM ε σ β} {g : σ → σ} (rest : Ends (f ⟨⟩ (g s)) R E) :
    Ends ((modify g >>= f) s) R E := rest

lemma ends_map {m : EStateM ε σ α} {f : α → β} (ends : Ends (m s) (fun a => R (f a)) E) : Ends ((f <$> m) s) R E := by
  change Ends (match m s with | .ok a t => .ok (f a) t | .error e t => .error e t) R E
  cases ran : m s with
  | ok a t => exact ends.ok ran
  | error e t => exact ends.failed ran

def Keeps (I : σ → Prop) (E : ε → σ → Prop) (P : α → Prop) (m : EStateM ε σ α) : Prop :=
  ∀ s, I s → Ends (m s) (fun a t => P a ∧ I t) E

def Anything (_ : α) : Prop := True

variable {I : σ → Prop} {P P' : α → Prop} {S : β → Prop} {m : EStateM ε σ α}

lemma Keeps.mono (keeps : Keeps I E P m) (weaker : ∀ a, P a → P' a) : Keeps I E P' m := fun s held =>
  (keeps s held).imp fun a _ done => ⟨weaker a done.1,done.2⟩

lemma keeps_pure (holds : P a) : Keeps I E P (pure a) := fun _ held => ⟨holds,held⟩

lemma keeps_throw (error : ∀ s, I s → E e s) : Keeps I E P (throw e : EStateM ε σ α) :=
  fun s held => error s held

lemma keeps_get : Keeps I E Anything (get : EStateM ε σ σ) := fun _ held => ⟨trivial,held⟩

lemma keeps_modify (kept : ∀ s, I s → I (f s)) : Keeps I E Anything (modify f : EStateM ε σ PUnit) :=
  fun s held => ⟨trivial,kept s held⟩

lemma Keeps.bind {f : α → EStateM ε σ β} (one : Keeps I E P m) (rest : ∀ a, P a → Keeps I E S (f a)) :
    Keeps I E S (m >>= f) := fun s held =>
  ends_bind (one s held) fun a t done => rest a done.1 t done.2

lemma Keeps.map {f : α → β} (keeps : Keeps I E (fun a => S (f a)) m) : Keeps I E S (f <$> m) :=
  fun s held => ends_map (keeps s held)

lemma Keeps.of_map (keeps : Keeps I E Anything (f <$> m)) : Keeps I E Anything m := by
  intro s held
  have ends := keeps s held
  change Ends (match m s with | .ok a t => .ok (f a) t | .error e t => .error e t) _ _ at ends
  cases ran : m s with
  | ok a t =>
    rw [ran] at ends
    exact ⟨trivial,ends.2⟩
  | error e t =>
    rw [ran] at ends
    exact ends

lemma Keeps.of_bind_pure (keeps : Keeps I E Anything (m >>= fun _ => pure b)) : Keeps I E Anything m := by
  intro s held
  have ends := keeps s held
  change Ends (match m s with | .ok _ t => .ok b t | .error e t => .error e t) _ _ at ends
  cases ran : m s with
  | ok a t =>
    rw [ran] at ends
    exact ⟨trivial,ends.2⟩
  | error e t =>
    rw [ran] at ends
    exact ends
end ToyOS.Outcome
