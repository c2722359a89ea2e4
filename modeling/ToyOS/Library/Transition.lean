import Mathlib

namespace ToyOS.Transition

-- A machine is a partial step function. `none` says that the step cannot be taken here or stops the machine.
variable {State Event : Type}

-- `allowed` restricts the steps of a run by their state. In the unrestricted machine every step is allowed.
inductive Reached (step : State → Event → Option State) (allowed : State → Event → Prop)
    (start : State) : State → Prop where
  | initial : Reached step allowed start start
  | next : Reached step allowed start s → allowed s event → step s event = some after →
      Reached step allowed start after

def Free (_ : State) (_ : Event) : Prop := True

variable {step : State → Event → Option State} {allowed stronger : State → Event → Prop}
  {start s after : State}

lemma Reached.trans (one : Reached step allowed start s) (two : Reached step allowed s after) :
    Reached step allowed start after := by
  induction two with
  | initial => exact one
  | next _ may did ih => exact .next ih may did

lemma Reached.mono (path : Reached step stronger start s)
    (weaker : ∀ s event, stronger s event → allowed s event) : Reached step allowed start s := by
  induction path with
  | initial => exact .initial
  | next _ may did ih => exact .next ih (weaker _ _ may) did

lemma Reached.free (path : Reached step stronger start s) : Reached step Free start s :=
  path.mono fun _ _ _ => trivial

lemma Reached.invariant (Invariant : State → Prop) (path : Reached step allowed start s) (base : Invariant start)
    (preserved : ∀ {s event after}, Reached step allowed start s → Invariant s → allowed s event →
      step s event = some after → Invariant after) : Invariant s := by
  induction path with
  | initial => exact base
  | next prior may did ih => exact preserved prior ih may did

lemma Reached.simulated {Abstract Action : Type} {act : Abstract → Action → Option Abstract}
    {origin : Abstract} (Refines : State → Abstract → Prop) (path : Reached step allowed start s)
    (base : Refines start origin)
    (matched : ∀ {s event after abstract}, Reached act Free origin abstract → Refines s abstract →
      step s event = some after → ∃ next, Reached act Free abstract next ∧ Refines after next) :
    ∃ abstract, Reached act Free origin abstract ∧ Refines s abstract := by
  induction path with
  | initial => exact ⟨origin,.initial,base⟩
  | next _ _ did ih =>
    obtain ⟨abstract,reached,refines⟩ := ih
    obtain ⟨next,more,refined⟩ := matched reached refines did
    exact ⟨next,reached.trans more,refined⟩

def run (step : State → Event → Option State) : State → List Event → Option State
  | s,[] => some s
  | s,event :: rest => (step s event).bind (run step · rest)

def guarded (permit : State → Event → Bool) (step : State → Event → Option State) (s : State)
    (event : Event) : Option State :=
  if permit s event then step s event else none

lemma run_permitted {permit : State → Event → Bool}
    (sound : ∀ {s event}, Reached step allowed start s → permit s event → allowed s event)
    (path : Reached step allowed start s) (ran : run (guarded permit step) s events = some after) :
    Reached step allowed start after := by
  induction events generalizing s with
  | nil => cases ran; exact path
  | cons event rest ih =>
    obtain ⟨mid,did,left⟩ := Option.bind_eq_some_iff.mp ran
    unfold guarded at did
    split at did
    · rename_i may
      exact ih (path.next (sound path may) did) left
    · cases did

lemma run_reached (ran : run step s events = some after) : Reached step Free s after := by
  have open_ : guarded (fun _ _ => true) step = step := rfl
  rw [←open_] at ran
  exact run_permitted (fun _ _ => trivial) .initial ran
end ToyOS.Transition
