import ContractHost.Host.InMemory
import ContractHost.Proofs.Host.Requests
import ContractHost.Proofs.Table

/-!
# Meters Only Rise

Nothing that a host does takes a charge back. A meter counts every charge, refused ones
included, and stops at the largest word, so what it has counted never falls. This file says
so for the chain as a whole, for the capabilities in memory, and for whatever is put
together from the two.

The capabilities in memory keep one more promise that billing rests on. A call they resolve
is bound to the meter of the call that asks, so a tree of calls shares the meter of its
root.

## Main definitions

* `Meter.Paid`: What a meter comes to by charges.
* `Chain.Metering`: A relation on meters along which the host itself moves a chain.
* `Chain.MetersRise`, `Chain.StaysOver`: No meter has fallen, or come back below its limit.
* `Capabilities.SharesMeter`: Resolved calls charge the meter of the call that asks.

## Theorems

* `Meter.isOver_charged`, `Meter.charge_eq`: A charge on a meter, by the limit.
* `Meter.charge_fits`: A charge that fits on the meter is not refused.
* `Meter.Paid.append`: Charges add up.
* `Chain.meter_setMeter`: A meter after one has been replaced.
* `Chain.metersRise_metering`, `Chain.staysOver_metering`: The host itself never lets a
  meter fall.
* `Capabilities.inMemory_within`, `Capabilities.inMemory_sharesMeter`: Nor do the
  capabilities in memory, and they share meters.
* `Capabilities.inMemory_resolves`: What they bind a resolved call to.
-/

namespace ContractHost

namespace Meter

theorem toNat_consumed_charged (m : Meter) (amount : UInt64) :
    m.consumed.toNat ≤ (m.charged amount).consumed.toNat := by
  have hfits := Word.toNat_le_top m.consumed
  rw [charged, Word.toNat_add]
  omega

/-- A meter is over its limit if it has one and more has been consumed. -/
theorem isOver_iff {m : Meter} :
    m.isOver = true ↔ ∃ limit, m.limit = some limit ∧ limit < m.consumed := by
  unfold isOver
  cases m.limit with
  | none =>
      constructor
      · intro h
        cases h
      · rintro ⟨limit, hlimit, -⟩
        cases hlimit
  | some limit =>
      constructor
      · exact fun h => ⟨limit, rfl, of_decide_eq_true h⟩
      · rintro ⟨limit', hlimit, hover⟩
        cases hlimit
        exact decide_eq_true hover

/-- A meter over its limit stays over it, whatever is charged. -/
theorem isOver_charged {m : Meter} (h : m.isOver = true) (amount : UInt64) :
    (m.charged amount).isOver = true := by
  rw [isOver_iff] at h ⊢
  rcases h with ⟨limit, hlimit, hover⟩
  have hrise := m.toNat_consumed_charged amount
  rw [UInt64.lt_iff_toNat_lt] at hover
  exact ⟨limit, hlimit, UInt64.lt_iff_toNat_lt.mpr (Nat.lt_of_lt_of_le hover hrise)⟩

/-- A charge is refused exactly if it leaves the meter over its limit. -/
theorem charge_eq (m : Meter) (amount : UInt64) :
    m.charge amount =
      (if (m.charged amount).isOver = true then .error (.outOfGas m.bound amount) else .ok (),
        m.charged amount) := rfl

/-- The meter has come to `m'` by charges of `n` altogether, as far as a word can count them. -/
structure Paid (m m' : Meter) (n : Nat) : Prop where
  limit : m'.limit = m.limit
  consumed : m'.consumed.toNat = min (m.consumed.toNat + n) Word.top

theorem Paid.refl (m : Meter) : m.Paid m 0 where
  limit := rfl
  consumed := (Nat.min_eq_left (Word.toNat_le_top m.consumed)).symm

theorem Paid.bound {m m' : Meter} {n : Nat} (h : m.Paid m' n) : m'.bound = m.bound := by
  unfold Meter.bound
  rw [h.limit]

/-- Charges in a row come to the charge of their sum. -/
theorem Paid.append {m m' m'' : Meter} {n n' : Nat} (h : m.Paid m' n) (h' : m'.Paid m'' n') :
    m.Paid m'' (n + n') where
  limit := h'.limit.trans h.limit
  consumed := by
    rw [h'.consumed, h.consumed]
    -- What has not been counted once is not counted later either.
    omega

theorem paid_charged (m : Meter) (amount : UInt64) :
    m.Paid (m.charged amount) amount.toNat where
  limit := rfl
  consumed := Word.toNat_add _ _

/-- A charge that takes a meter over its limit is one that the meter could not bear. -/
theorem bound_lt_of_isOver {m : Meter} {amount : UInt64}
    (h : (m.charged amount).isOver = true) :
    m.bound.toNat < m.consumed.toNat + amount.toNat := by
  -- What the meter shows is clamped, so the exact sum lies beyond the limit as well.
  rcases isOver_iff.mp h with ⟨limit, hlimit, hover⟩
  have hbound : m.bound = limit := by
    unfold Meter.bound
    rw [show m.limit = some limit from hlimit]
    rfl
  rw [UInt64.lt_iff_toNat_lt, (m.paid_charged amount).consumed] at hover
  rw [hbound]
  omega

/-- A charge that fits on the meter is not refused. -/
theorem charge_fits {m : Meter} {amount : UInt64}
    (hfits : m.consumed.toNat + amount.toNat ≤ m.bound.toNat) : (m.charge amount).1 = .ok () := by
  rw [charge_eq]
  refine if_neg fun hover => ?_
  have hlt := bound_lt_of_isOver hover
  omega

end Meter

namespace Chain

theorem meter_setMeter (c : Chain) (id id' : MeterId) (m : Meter) :
    (c.setMeter id m).meter id' = if id' = id then m else c.meter id' :=
  Table.getD_set c.meters id id' m (.new none)

/-- No meter has fallen. -/
def MetersRise (c c' : Chain) : Prop :=
  ∀ id, (c.meter id).consumed.toNat ≤ (c'.meter id).consumed.toNat

theorem metersRise_charged (c : Chain) (id : MeterId) (amount : UInt64) :
    MetersRise c (c.setMeter id ((c.meter id).charged amount)) := by
  intro id'
  rw [meter_setMeter]
  by_cases h : id' = id
  · rw [if_pos h, h]
    exact (c.meter id).toNat_consumed_charged amount
  · exact Nat.le_of_eq (by rw [if_neg h])

/-- The host lets no meter fall. -/
theorem metersRise_harmless : Harmless MetersRise where
  steady := ⟨fun _ _ => Nat.le_refl _, fun h h' id => Nat.le_trans (h id) (h' id)⟩
  charge := metersRise_charged
  write _ _ _ _ := Nat.le_refl _
  pass _ _ _ _ _ := Nat.le_refl _

/-- A meter over its limit stays over it. -/
def StaysOver (c c' : Chain) : Prop :=
  ∀ id, (c.meter id).isOver = true → (c'.meter id).isOver = true

/-- Nor does it bring one back below its limit. -/
theorem staysOver_harmless : Harmless StaysOver where
  steady := ⟨fun _ _ h => h, fun h h' id hover => h' id (h id hover)⟩
  charge c id amount id' hover := by
    rw [meter_setMeter]
    by_cases h : id' = id
    · rw [h] at hover
      rw [if_pos h]
      exact Meter.isOver_charged hover amount
    · rw [if_neg h]
      exact hover
  write _ _ _ _ h := h
  pass _ _ _ _ _ h := h

/-- A relation along which the host itself moves a chain, and which is about meters only. -/
structure Metering (Q : Chain → Chain → Prop) : Prop extends Harmless Q where
  of_eq : ∀ c c', c'.meters = c.meters → Q c c'

theorem meter_of_eq {c c' : Chain} (h : c'.meters = c.meters) (id : MeterId) :
    c'.meter id = c.meter id := by
  unfold meter
  rw [h]

theorem metersRise_metering : Metering MetersRise where
  toHarmless := metersRise_harmless
  of_eq c c' h id := Nat.le_of_eq (by rw [meter_of_eq h])

theorem staysOver_metering : Metering StaysOver where
  toHarmless := staysOver_harmless
  of_eq c c' h id hover := by
    rw [meter_of_eq h]
    exact hover

variable {Q : Chain → Chain → Prop} (hQ : Metering Q)

include hQ

/-- Apart from its charge a transfer is no matter of meters. -/
theorem transferCoin_within (meter : MeterId) (receiver payer : String) (coin : Coin) :
    (transferCoin meter receiver payer coin).Within Q := by
  have hsteady := hQ.steady
  refine .bind hsteady (charge_within hQ.toHarmless meter transferCost) (fun _ => ?_)
  refine .bind hsteady (.ofExcept hsteady _) (fun a c => ?_)
  rw [Attempt.bind_apply, Attempt.get_apply]
  dsimp only
  -- The charge stands, whether or not there are coins to move.
  cases c.ledger.move payer receiver coin.denom a with
  | none => exact hsteady.refl c
  | some ledger => exact hQ.of_eq _ _ rfl

theorem createContract_within (meter : MeterId) (request : CreateRequest) :
    (createContract meter request).Within Q := by
  refine .bind hQ.steady (charge_within hQ.toHarmless meter createCost) (fun _ c => ?_)
  exact hQ.of_eq _ _ rfl

theorem resolveCall_within (querier : Querier) (ctx : Context) (contract store : String) :
    (resolveCall querier ctx contract store).Within Q := by
  have hsteady := hQ.steady
  refine .bind hsteady (.get hsteady) (fun c => ?_)
  cases c.contracts.get? contract with
  | none => exact .throw hsteady _
  | some code => exact .pure hsteady _

end Chain

namespace Capabilities

/-- The capabilities in memory move the chain along every relation that is about meters only. -/
theorem inMemory_within {Q : Chain → Chain → Prop} (hQ : Chain.Metering Q) (querier : Querier) :
    (inMemory querier).Within Q where
  canonicalize _ _ := .ofExcept hQ.steady _
  humanize _ _ := .ofExcept hQ.steady _
  resolveCall ctx contract store := Chain.resolveCall_within hQ querier ctx contract store
  transfer ctx receiver payer coins :=
    .forM hQ.steady (Chain.transferCoin_within hQ ctx.binding.meter receiver payer) coins
  createContract ctx request _ := Chain.createContract_within hQ ctx.binding.meter request

theorem inMemory_within_metersRise (querier : Querier) :
    (inMemory querier).Within Chain.MetersRise :=
  inMemory_within Chain.metersRise_metering querier

/-- What the capabilities in memory bind a resolved call to. -/
theorem inMemory_resolves {querier : Querier} {ctx : Context} {contract store : String}
    {c c' : Chain} {found : Resolution}
    (h : (inMemory querier).resolveCall ctx contract store c = (.ok (.ok found), c')) :
    found.binding = ((Binding.new (.ofContract store) ctx.binding.meter querier).withStoreAddress
      store).withContract contract := by
  change Chain.resolveCall querier ctx contract store c = (.ok (.ok found), c') at h
  unfold Chain.resolveCall at h
  rw [Attempt.bind_apply, Attempt.get_apply] at h
  dsimp only at h
  -- A contract that is missing resolves to nothing.
  cases hcode : c.contracts.get? contract with
  | none =>
      rw [hcode] at h
      cases h
  | some code =>
      rw [hcode] at h
      cases h
      rfl

/-- Resolved calls charge the meter of the call that asks. -/
def SharesMeter (c : Capabilities) : Prop :=
  ∀ ctx contract store s found t,
    c.resolveCall ctx contract store s = (.ok (.ok found), t) →
      found.binding.meter = ctx.binding.meter

/-- Calls resolved in memory charge the meter of the call that asks. -/
theorem inMemory_sharesMeter (querier : Querier) : (inMemory querier).SharesMeter := by
  intro ctx contract store s found t h
  rw [inMemory_resolves h]
  rfl

end Capabilities

end ContractHost
