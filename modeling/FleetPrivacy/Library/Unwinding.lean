import Mathlib.Data.List.Basic

/-!
# Deterministic servers and confinement to one client's view

A server is a total function from a state and an operation to the next state
and a response.  `Confines` says, for one operation at a time, that a client's
own operations can be replayed on the client's view of the state, and that
everybody else's operations leave this view as it was.  Whole histories then
look to the client as if nobody else had taken part.

The invariant sees the operations that are still to come, so that it can speak
about values that a later operation brings along.
-/

namespace Unwinding

universe u v w

variable {σ : Type u} {α : Type v} {ρ : Type w}

/-- The state after a history. -/
def final (step : σ → α → σ × ρ) (start : σ) (history : List α) : σ :=
  history.foldl (fun state operation => (step state operation).1) start

/-- The responses to the client's own operations, in order. -/
def responses (step : σ → α → σ × ρ) (mine : α → Bool) :
    σ → List α → List ρ
  | _, [] => []
  | state, operation :: history =>
      let (next, response) := step state operation
      if mine operation then
        response :: responses step mine next history
      else responses step mine next history

/-- One-step conditions for confinement to `view`. -/
structure Confines (step : σ → α → σ × ρ) (mine : α → Bool) (view : σ → σ)
    (good : σ → List α → Prop) : Prop where
  kept : ∀ {state operation history}, good state (operation :: history) →
    good (step state operation).1 history
  own : ∀ {state operation history}, good state (operation :: history) →
    mine operation = true →
    step (view state) operation =
      (view (step state operation).1, (step state operation).2)
  foreign : ∀ {state operation history}, good state (operation :: history) →
    mine operation = false → view (step state operation).1 = view state

namespace Confines

variable {step : σ → α → σ × ρ} {mine : α → Bool} {view : σ → σ}
  {good : σ → List α → Prop}

/-- The client's responses are those of the history without the others. -/
theorem responses_eq (confines : Confines step mine view good)
    {state : σ} {history : List α} (initially : good state history) :
    responses step mine state history =
      responses step mine (view state) (history.filter mine) := by
  induction history generalizing state with
  | nil => rfl
  | cons operation history induction =>
      have later := induction (confines.kept initially)
      cases owned : mine operation with
      | true =>
          have replayed := confines.own initially owned
          simp [responses, owned, replayed, later]
      | false =>
          have unseen := confines.foreign initially owned
          simpa [responses, owned, unseen] using later

/-- So is the client's view of the final state. -/
theorem view_final (confines : Confines step mine view good)
    {state : σ} {history : List α} (initially : good state history) :
    view (final step state history) =
      final step (view state) (history.filter mine) := by
  induction history generalizing state with
  | nil => rfl
  | cons operation history induction =>
      have later := induction (confines.kept initially)
      cases owned : mine operation with
      | true =>
          have replayed := confines.own initially owned
          simpa [final, owned, replayed] using later
      | false =>
          have unseen := confines.foreign initially owned
          simpa [final, owned, unseen] using later

/-- Two histories with the same own operations cannot be told apart. -/
theorem indistinguishable (confines : Confines step mine view good)
    {state : σ} {first second : List α} (firstGood : good state first)
    (secondGood : good state second)
    (same : first.filter mine = second.filter mine) :
    responses step mine state first = responses step mine state second ∧
      view (final step state first) = view (final step state second) := by
  constructor
  · rw [confines.responses_eq firstGood, confines.responses_eq secondGood,
      same]
  · rw [confines.view_final firstGood, confines.view_final secondGood, same]

end Confines

end Unwinding
