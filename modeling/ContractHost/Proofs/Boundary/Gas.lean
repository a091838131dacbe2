import ContractHost.Proofs.Boundary.Callback
import ContractHost.Proofs.Chain.Meters

/-!
# Gas at the Boundary

What a callback writes as its gas is what the host reports, and the host reports by how much
the meter of the call has gone up while it served the inquiry. That covers everything that is
charged on the way, by the host before and behind an operation and by a capability in between,
and it does not matter whether the inquiry is refused in the end.

A panic is another matter. It takes the report with it, and what the boundary writes instead is
zero. What has been charged before the panic stays charged, so then the gas that is written and
the gas that is missing on the meter are not the same.

Capabilities may do to meters what anyone may do to them, which is to charge. This is what
`Chain.MetersRise` asks of them.

## Theorems

* `Host.answer_reports`: The host reports by how much the meter has gone up.
* `Callback.run_writes_gas`: What a callback writes as its gas.
* `Callback.run_loses_gas`: A panic after a charge.
-/

namespace ContractHost

theorem Report.total_ofExternal (gas : UInt64) : (Report.ofExternal gas).total = gas := by
  unfold total ofExternal Word.add
  rw [UInt64.toNat_zero, Nat.zero_add, Word.clamp_toNat]

/-- The host reports by how much the meter has gone up, if capabilities do nothing to meters but
    charge. -/
theorem Host.answer_reports {host : Host} (hcap : host.capabilities.Within Chain.MetersRise)
    {q : Inquiry} (hq : ¬ q.Queries) {w w' : World} {ctx : Context}
    (hlive : w.registry.lookup q.call = .ok ctx) {r : Except HostError q.Answer} {gas : Report}
    (h : host.answer q w = (.ok (r, gas), w')) :
    (w.meterOf ctx).consumed.toNat + gas.total.toNat = (w'.meterOf ctx).consumed.toNat := by
  have hrise := answer_along Chain.metersRise_harmless hcap q w ctx.binding.meter
  rw [h] at hrise
  change (w.meterOf ctx).consumed.toNat ≤ (w'.meterOf ctx).consumed.toNat at hrise
  -- Every inquiry but a query reports a difference of two readings of the meter of its call.
  rcases answer_withContext host hq with ⟨serve, hserve⟩
  rw [hserve, World.withContext_live serve hlive] at h
  rcases hserved : serve ctx w with ⟨p | r', w''⟩
  · rw [hserved] at h
    cases h
  · rw [hserved] at h
    cases h
    -- A difference of words stops at zero, which it does not get to because meters only rise.
    rw [Report.total_ofExternal, Word.toNat_sub]
    omega

namespace Callback

/-- A callback other than a query, for a live call, writes by how much the meter of the call has
    gone up if the host comes to an end with it, and zero if the host panics. -/
theorem run_writes_gas {c : Callback} {q : Inquiry} {write : q.Answer → c.Output}
    (h : c.Asks q write) (hq : ¬ q.Queries) {places : Places} (hplaced : c.Placed places)
    (hgas : places.gas = true) {host : Host} (hcap : host.capabilities.Within Chain.MetersRise)
    {w : World} {ctx : Context} (hlive : w.registry.lookup q.call = .ok ctx) :
    ∃ gas, (c.run (some host) places w).1.gas = some gas ∧
      ((∃ r, (host.answer q w).1 = .ok r) →
        (w.meterOf ctx).consumed.toNat + gas.toNat =
          ((c.run (some host) places w).2.meterOf ctx).consumed.toNat) ∧
      ((∃ p, (host.answer q w).1 = .error p) → gas = 0) := by
  have hwritten : ∀ r : Metered c.Output, (Boundary.reply places r).gas = some r.2.total := by
    intro r
    exact if_pos hgas
  rw [h.run_apply hplaced host w, hwritten]
  refine ⟨_, rfl, ?_, ?_⟩
  · rintro ⟨⟨r, gas⟩, hr⟩
    rw [hr]
    exact Host.answer_reports hcap hq hlive (Prod.ext hr rfl)
  · -- The reply to a panic is made without the meter.
    rintro ⟨p, hp⟩
    rw [hp]
    rfl

end Callback

/-- A host with a capability that panics. -/
def Host.panicking : Host :=
  { Host.small with
    capabilities := { Capabilities.inMemory (.answering 1) with
      humanize := fun _ _ => Attempt.panic ⟨"no"⟩ } }

theorem Host.panicking_within : Host.panicking.capabilities.Within Chain.MetersRise :=
  { Capabilities.inMemory_within_metersRise (.answering 1) with
    humanize := fun _ _ => .panic Chain.metersRise_harmless.steady _ }

/-- The address is charged for before the capability panics, and zero is written. -/
theorem Callback.run_writes_gas_of_panic :
    ∃ gas, ((Callback.humanize 1 (.ofBytes [120])).run (some .panicking) .all .small).1.gas =
        some gas ∧ gas = 0 := by
  have hasks : Callback.Asks (.humanize 1 (.ofBytes [120])) (.humanize ⟨1⟩ [120]) _ := .humanize rfl
  have hplaced : Callback.Placed .all (.humanize 1 (.ofBytes [120])) := rfl
  rcases Callback.run_writes_gas hasks (fun h => h) hplaced rfl Host.panicking_within
    World.lookup_small with ⟨gas, hgas, -, hpanic⟩
  exact ⟨gas, hgas, hpanic ⟨_, rfl⟩⟩

/-- So what is written is not always by how much the meter has gone up. -/
theorem Callback.run_loses_gas :
    ¬ ∀ (c : Callback) (q : Inquiry) (write : q.Answer → c.Output) (places : Places) (host : Host)
      (w : World) (ctx : Context), c.Asks q write → ¬ q.Queries → c.Placed places →
      places.gas = true → host.capabilities.Within Chain.MetersRise →
      w.registry.lookup q.call = .ok ctx →
      ∃ gas, (c.run (some host) places w).1.gas = some gas ∧
        (w.meterOf ctx).consumed.toNat + gas.toNat =
          ((c.run (some host) places w).2.meterOf ctx).consumed.toNat := by
  intro h
  rcases h (.humanize 1 (.ofBytes [120])) (.humanize ⟨1⟩ [120]) _ .all .panicking .small _
    (.humanize rfl) (fun h => h) rfl rfl Host.panicking_within World.lookup_small with
    ⟨gas, hgas, hmeter⟩
  have hzero : gas = 0 := Option.some.inj (hgas.symm.trans (by decide +kernel))
  rw [hzero] at hmeter
  exact absurd hmeter (by decide +kernel)

end ContractHost
