import Mathlib.Data.List.Basic

/-! # Runs of a machine

A machine is a partial step function: an action that is not enabled in a state leads nowhere. What every step
preserves holds at the end of every run.
-/

namespace JobRelay.Sessions.Machine

variable {S A : Type*}

/-- The state after a list of actions, if each is enabled when its turn comes. -/
def run (step : S → A → Option S) : S → List A → Option S
  | s, [] => some s
  | s, action :: rest => (step s action).bind fun next => run step next rest

variable {step : S → A → Option S} {s last : S}

@[simp] theorem run_nil : run step s [] = some s := rfl

theorem run_cons {action : A} {rest : List A} (ran : run step s (action :: rest) = some last) :
    ∃ next, step s action = some next ∧ run step next rest = some last := Option.bind_eq_some_iff.mp ran

theorem run_append {first second : List A} :
    run step s (first ++ second) = (run step s first).bind fun middle => run step middle second := by
  induction first generalizing s with
  | nil => rfl
  | cons action rest ih =>
    rw [List.cons_append, run, run, Option.bind_assoc]
    exact Option.bind_congr fun next _ => ih

/-- An invariant of the steps is an invariant of the runs. -/
theorem preserves {P : S → Prop} (steps : ∀ s action next, P s → step s action = some next → P next)
    {actions : List A} (initial : P s) (ran : run step s actions = some last) : P last := by
  induction actions generalizing s with
  | nil =>
    cases ran
    exact initial
  | cons action rest ih =>
    obtain ⟨next, stepped, ran⟩ := run_cons ran
    exact ih (steps s action next initial stepped) ran

end JobRelay.Sessions.Machine
