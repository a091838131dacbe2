import ContractHost.Error

/-!
# Gas Meters

A meter counts the gas charged on it. One with a limit refuses a charge that takes
the count past the limit, but counts it all the same; one without never refuses.
The count stops at the largest word.

## Main definitions

* `Meter`: A count with an optional limit.
* `Meter.bound`: The limit, or the largest word.
* `Meter.remaining`: What may still be charged.
* `Meter.charge`: Charges an amount.
-/

namespace ContractHost

/-- A count of gas with an optional limit. -/
structure Meter where
  /-- What may be charged, if that is limited. -/
  limit : Option UInt64
  /-- What has been charged. -/
  consumed : UInt64
deriving DecidableEq

namespace Meter

/-- A meter on which nothing has been charged. -/
def new (limit : Option UInt64) : Meter := ⟨limit, 0⟩

instance : Inhabited Meter := ⟨new none⟩

/-- The limit, or the largest word for a meter without one. -/
def bound (m : Meter) : UInt64 := m.limit.getD (Word.clamp Word.top)

/-- What may still be charged. -/
def remaining (m : Meter) : UInt64 := Word.sub m.bound m.consumed

/-- The meter after a charge, refused or not. -/
def charged (m : Meter) (amount : UInt64) : Meter :=
  { m with consumed := Word.add m.consumed amount }

/-- Whether a meter is past its limit. Reaching the limit exactly is allowed. -/
def isOver (m : Meter) : Bool :=
  match m.limit with
  | some limit => limit < m.consumed
  | none => false

/-- Charges an amount. The refusal names the limit and the amount of this charge. -/
def charge (m : Meter) (amount : UInt64) : Except HostError Unit × Meter :=
  let after := m.charged amount
  (if after.isOver then .error (.outOfGas m.bound amount) else .ok (), after)

end Meter

end ContractHost
