import ContractHost.Word

/-!
# Gas Reports

Every operation reports the gas it used, on failure too: what was spent inside an
engine, and what was charged on the host's side.

## Main definitions

* `Report`: Engine gas and host gas.
* `Report.total`: Their sum, clamped.
* `Report.add`: The report of two operations in a row.
* `Metered`: A result with its report.
-/

namespace ContractHost

/-- The gas an operation used. -/
structure Report where
  /-- Gas spent inside an engine. -/
  cost : UInt64
  /-- Gas charged on the host's side. -/
  external : UInt64
deriving DecidableEq

namespace Report

/-- No gas. -/
def free : Report := ⟨0, 0⟩

/-- Gas spent inside an engine only. -/
def ofCost (cost : UInt64) : Report := ⟨cost, 0⟩

/-- Gas charged on the host's side only. -/
def ofExternal (external : UInt64) : Report := ⟨0, external⟩

/-- All gas, or the largest word when the sum does not fit. -/
def total (r : Report) : UInt64 := Word.add r.cost r.external

/-- The report of two operations in a row. -/
def add (r s : Report) : Report := ⟨Word.add r.cost s.cost, Word.add r.external s.external⟩

instance : Add Report := ⟨add⟩

end Report

end ContractHost
