import ContractHost.Effect

/-!
# Scripted Outages

To see how a host copes, a component can be told to fail for a stretch of the calls
made to it: let some calls through, then refuse or panic a number of times or for
good, then work again. An outage counts calls from the moment it is set.

## Main definitions

* `Outage`: Which calls fail, and how.
* `Outage.strikes`: Whether the next call fails.
* `Outage.pass`: The outage after one more call.
-/

namespace ContractHost

/-- How a call fails. -/
inductive Failure (ε : Type)
  | panic (p : Panic)
  | refuse (e : ε)

/-- Which calls fail, and how. -/
structure Outage (ε : Type) where
  /-- How many calls are let through first. -/
  skip : Nat
  /-- How many calls fail after those, or none if all do. -/
  times : Option Nat
  /-- How they fail. -/
  failure : Failure ε
  /-- How many calls have been made. -/
  seen : Nat

namespace Outage

variable {ε : Type}

/-- Whether the next call fails. -/
def strikes (o : Outage ε) : Bool :=
  o.skip ≤ o.seen &&
    match o.times with
    | none => true
    | some times => o.seen < o.skip + times

/-- The outage after one more call. -/
def pass (o : Outage ε) : Outage ε := { o with seen := o.seen + 1 }

/-- Makes a call that may be out: `read` and `write` are the place where the outage
    is kept. A call that fails does not reach the component. -/
def guarding {σ α : Type} (read : σ → Option (Outage ε)) (write : σ → Outage ε → σ)
    (call : Attempt σ ε α) : Attempt σ ε α := do
  match read (← getThe σ) with
  | none => call
  | some o =>
    modifyThe σ fun s => write s o.pass
    if o.strikes then
      match o.failure with
      | .panic p => Attempt.panic p
      | .refuse e => throw e
    else call

end Outage

end ContractHost
