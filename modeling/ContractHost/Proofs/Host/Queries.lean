import ContractHost.Proofs.Chain.Meters
import ContractHost.Proofs.Small

/-!
# Queries Under Their Limit

A query runs on a meter that is made for it and is gone afterwards. Each charge is counted,
also one that is refused, and what the querier makes of a refusal is its own affair: it may go
on as if nothing had happened, end with an error of its own, or answer all the same. So its
answer says nothing about the limit, and the host reads the meter instead.

The count is the sum of the charges as far as it fits in a word, by induction over the plan.
Which charges are made may depend on the verdicts on those before them, so they are the charges
of the plan on a certain meter.

## Main definitions

* `QueryPlan.charges`, `QueryPlan.spent`: What a plan charges on a meter, and the sum of it.

## Theorems

* `QueryPlan.paid_run`: The meter after a plan.
* `World.query_isolated`: A query of a live call, in terms of the charges.
-/

namespace ContractHost

namespace QueryPlan

/-- What the plan charges on a meter, in order. A verdict decides how the plan goes on, but the
    amount has been charged by then. -/
def charges : QueryPlan → Meter → List UInt64
  | done _, _ => []
  | panic _, _ => []
  | charge amount next, m =>
      amount :: (next (m.charge amount).1).charges (m.charge amount).2

/-- The sum of the charges, also where it does not fit in a word. -/
def spent (plan : QueryPlan) (m : Meter) : Nat := ((plan.charges m).map UInt64.toNat).sum

/-- The meter counts all charges, whatever it has said to them. -/
theorem paid_run (plan : QueryPlan) (m : Meter) : m.Paid (plan.run m).2 (plan.spent m) := by
  induction plan generalizing m with
  | done result => exact .refl m
  | panic p => exact .refl m
  | charge amount next ih =>
      -- The first charge is on the meter before the verdict is given.
      have hrest := ih (m.charge amount).1 (m.charged amount)
      exact (m.paid_charged amount).append hrest

end QueryPlan

namespace World

variable {call : Handle} {ctx : Context} {w : World}

/-- A query of a live call under the limit `g`, where `t` is the sum of the querier's charges as
    far as it fits in a word. If `t` is more than `g`, the query is out of gas whatever the
    querier has answered, and otherwise it ends with exactly the querier's result. The gas that
    is reported is `t`, but no more than `g`. A querier that panics makes the query panic. In
    each case the world is what it was before, the meter, the store and the cursors of the call
    and the registry included. -/
theorem query_isolated (hlive : w.registry.lookup call = .ok ctx) (request : Bytes)
    (g : UInt64) :
    ∃ t external : UInt64,
      t.toNat =
        min ((ctx.binding.querier w.chain request).spent (.new (some g))) Word.top ∧
      external.toNat = min t.toNat g.toNat ∧
      (∀ result, ((ctx.binding.querier w.chain request).run (.new (some g))).1 = .ok result →
        World.query call request g w =
          (.ok (if g.toNat < t.toNat then .error (.outOfGas g t) else result,
            .ofExternal external), w)) ∧
      ∀ p, ((ctx.binding.querier w.chain request).run (.new (some g))).1 = .error p →
        World.query call request g w = (.error p, w) := by
  rcases hrun : (ctx.binding.querier w.chain request).run (.new (some g)) with ⟨answer, meter⟩
  -- The querier's meter is a new one, so what it counts is what the querier has charged.
  have hcount := ((ctx.binding.querier w.chain request).paid_run (.new (some g))).consumed
  have hnew : (Meter.new (some g)).consumed.toNat = 0 := rfl
  rw [hrun, hnew, Nat.zero_add] at hcount
  -- A consumption over the limit is reported as the limit.
  refine ⟨meter.consumed, if g < meter.consumed then g else meter.consumed, hcount, ?_,
    fun result (hresult : answer = .ok result) => ?_, fun p (hpanic : answer = .error p) => ?_⟩
  · by_cases hover : g < meter.consumed
    · rw [if_pos hover]
      exact (Nat.min_eq_right (Nat.le_of_lt (UInt64.lt_iff_toNat_lt.mp hover))).symm
    · rw [if_neg hover]
      rw [UInt64.lt_iff_toNat_lt] at hover
      omega
  · rw [query_live hlive request g hrun, hresult]
    by_cases hover : g < meter.consumed
    · rw [if_pos hover, if_pos (UInt64.lt_iff_toNat_lt.mp hover)]
      simp only [Except.map, if_pos hover]
    · rw [if_neg hover, if_neg (fun h => hover (UInt64.lt_iff_toNat_lt.mpr h))]
      simp only [Except.map, if_neg hover]
  · rw [query_live hlive request g hrun, hpanic]
    rfl

/-- The world with a second call, the querier of which charges twice and wraps a refusal. -/
def wrapping : World :=
  (World.small.register
    (Binding.new (.ofContract "a") 0 (.scripted [60, 60] .wrap .echo))).2

/-- The second charge is refused, and the querier ends with an error of its own. The query is
    out of gas all the same, for the sum of both charges, and reports the limit. -/
theorem query_isolated_of_wrapped :
    ((Querier.scripted [60, 60] .wrap .echo wrapping.chain []).run (.new (some 100))).1 =
        .ok (.error (.query (HostError.outOfGas 100 60).message)) ∧
      World.query ⟨2⟩ [] 100 wrapping =
        (.ok (.error (.outOfGas 100 120), .ofExternal 100), wrapping) := by
  have hlive : wrapping.registry.lookup ⟨2⟩ = .ok ⟨⟨2⟩, none, 0,
      Binding.new (.ofContract "a") 0 (.scripted [60, 60] .wrap .echo), 1⟩ := rfl
  have hquerier : ((Querier.scripted [60, 60] .wrap .echo wrapping.chain []).run
      (.new (some 100))).1 = .ok (.error (.query (HostError.outOfGas 100 60).message)) := rfl
  rcases query_isolated hlive [] 100 with ⟨t, external, ht, hexternal, hanswer, -⟩
  have htotal : t = 120 := UInt64.toNat.inj (ht.trans (by rfl))
  rw [htotal] at hexternal hanswer
  have hlimit : external = 100 := UInt64.toNat.inj (hexternal.trans (by rfl))
  rw [hlimit] at hanswer
  exact ⟨hquerier, hanswer _ hquerier⟩

end World

end ContractHost
