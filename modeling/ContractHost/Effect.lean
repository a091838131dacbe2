import ContractHost.Error

/-!
# Effects

What a component does is a function on a state with two ways out besides a value: it
may refuse, and it may panic. Neither undoes what was changed before. A panic is not
a refusal: it passes everything that handles refusals and ends at the boundary or at
the caller of the whole run.

## Main definitions

* `Action`: A step that may panic.
* `Attempt`: A step that may also refuse.
* `Action.focus`: A step on a part of the state as a step on the whole.
* `Attempt.outcome`: The result of an attempt as a value, refusals included.
* `Attempt.mapError`: An attempt whose refusals are those of another kind.
-/

namespace ContractHost

/-- A step on a state that may panic. -/
abbrev Action (σ : Type) := ExceptT Panic (StateM σ)

/-- A step on a state that may refuse or panic. -/
abbrev Attempt (σ ε : Type) := ExceptT ε (Action σ)

namespace Action

variable {σ τ α : Type}

/-- A step that panics. -/
def panic (p : Panic) : Action σ α := throw p

/-- A step on a part of the state as a step on the whole. -/
def focus (part : σ → τ) (update : σ → τ → σ) (step : Action τ α) : Action σ α :=
  fun s =>
    let r := step (part s)
    (r.1, update s r.2)

/-- A step whose result is kept as a value, panics included. -/
def caught (step : Action σ α) : StateM σ (Except Panic α) := step

/-- A step after which `cleanup` changes the state, whichever way it ends. -/
def ensuring (step : Action σ α) (cleanup : σ → σ) : Action σ α :=
  fun s =>
    let r := step s
    (r.1, cleanup r.2)

end Action

namespace Attempt

variable {σ τ ε ε' α : Type}

/-- The result of an attempt as a value, refusals included. -/
def outcome (step : Attempt σ ε α) : Action σ (Except ε α) := step

/-- An attempt on a part of the state as one on the whole. -/
def focus (part : σ → τ) (update : σ → τ → σ) (step : Attempt τ ε α) : Attempt σ ε α :=
  ExceptT.mk (Action.focus part update step.outcome)

/-- An attempt whose refusals are those of another kind. -/
def mapError (f : ε → ε') (step : Attempt σ ε α) : Attempt σ ε' α :=
  ExceptT.adapt f step

/-- An attempt that succeeds or refuses without looking at the state. -/
def ofExcept (r : Except ε α) : Attempt σ ε α := ExceptT.mk (pure r)

/-- An attempt that panics. -/
def panic (p : Panic) : Attempt σ ε α := ExceptT.mk (Action.panic p)

end Attempt

end ContractHost
