import ContractHost.Chain.Basic

/-!
# Query Plans

What a querier does for one request: it charges gas on the meter it is given, step by
step, learns each time whether the meter refused, and in the end answers, refuses or
panics. What it does with a refusal is its own affair.

## Main definitions

* `QueryPlan`: The steps of a querier for one request.
* `QueryPlan.run`: The steps on a meter.
* `Querier`: A plan for every request, which may depend on the chain.
-/

namespace ContractHost

/-- The steps of a querier for one request. -/
inductive QueryPlan
  /-- Answers or refuses. -/
  | done (result : Except HostError Bytes)
  /-- Panics. -/
  | panic (p : Panic)
  /-- Charges gas and goes on with the meter's verdict. -/
  | charge (amount : UInt64) (next : Except HostError Unit → QueryPlan)

/-- The steps of a plan on a meter: how it ends, and the meter afterwards. -/
def QueryPlan.run : QueryPlan → Meter → Except Panic (Except HostError Bytes) × Meter
  | done result, m => (.ok result, m)
  | panic p, m => (.error p, m)
  | charge amount next, m =>
    let r := m.charge amount
    (next r.1).run r.2

/-- A plan for every request, which may depend on the chain. -/
abbrev Querier := Chain → Bytes → QueryPlan

end ContractHost
