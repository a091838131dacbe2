import ContractHost.Proofs.Host.Priced

/-!
# Records behind Requests

A write that succeeds has put one record into a memory, and a read that succeeds has looked one
up. Which memory and which key this is depends on the store of the call alone: the scopes on the
way each put their prefix before the key, and `Store.path` is what they put before it together. A
store that is out now and then makes no difference to this, since a request that meets an outage
does not succeed. So what holds of records written and read again holds of all stores, whether or
not they answer every request.

Gas decides about success, but not about the record either. `World.priced_ok` takes the charges
away from a request that succeeded, and `World.priced_fits` says that a request succeeds if its
operation does and its charges fit on the meter.

## Main definitions

* `Store.path`: What a store puts before a key.

## Theorems

* `World.priced_ok`, `World.priced_fits`: Operations between charges that are paid.
* `Store.get_ok`, `Store.set_ok`: What a store does when it succeeds.
* `Host.get_ok`, `Host.set_ok`: What a request does when it succeeds.
* `Host.get_fits`, `Host.set_fits`: A request that succeeds.
-/

namespace ContractHost

/-! ## Charges that are paid -/

namespace World

variable {α : Type} {operation : Attempt α} {ctx : Context} {before : UInt64}
  {behind : α → Option UInt64} {w w' : World} {a : α}

/-- A row that ends well hands back what the operation does, and has the memories that the
    operation leaves. -/
theorem priced_ok (hop : Unmetered operation)
    (h : priced ctx before operation behind w = (.ok (.ok a), w')) :
    ∃ w₁, operation w = (.ok (.ok a), w₁) ∧ w'.chain.memories = w₁.chain.memories := by
  -- Every other end of the row, a refused charge or an operation that fails, is no success.
  rw [priced_apply hop] at h
  cases hfirst : ((w.meterOf ctx).charge before).1 with
  | error e =>
      rw [hfirst] at h
      cases h
  | ok paid =>
      rw [hfirst] at h
      rcases hserved : operation w with ⟨p | e | b, w₁⟩
      · rw [hserved] at h
        cases h
      · rw [hserved] at h
        cases h
      · rw [hserved] at h
        dsimp only at h
        cases hbehind : behind b with
        | none =>
            rw [hbehind] at h
            cases h
            exact ⟨w₁, rfl, rfl⟩
        | some price =>
            rw [hbehind] at h
            dsimp only at h
            cases hsecond : (((w.meterOf ctx).charged before).charge price).1 with
            | error e =>
                rw [hsecond] at h
                cases h
            | ok paid' =>
                rw [hsecond] at h
                cases h
                exact ⟨w₁, rfl, rfl⟩

variable (before behind) in
/-- A row ends well if the operation does and both charges fit on the meter. -/
theorem priced_fits (hop : Unmetered operation) (hserved : operation w = (.ok (.ok a), w'))
    (hfits : (w.meterOf ctx).consumed.toNat + before.toNat + ((behind a).getD 0).toNat ≤
      (w.meterOf ctx).bound.toNat) :
    ∃ w₁, priced ctx before operation behind w = (.ok (.ok a), w₁) ∧
      w₁.registry = w'.registry ∧ w₁.chain.memories = w'.chain.memories ∧
      (w.meterOf ctx).Paid (w₁.meterOf ctx) (before.toNat + ((behind a).getD 0).toNat) := by
  have hmeter := hop.meterOf w ctx
  have hpaid := (w.meterOf ctx).paid_charged before
  rw [hserved] at hmeter
  dsimp only at hmeter
  rw [priced_apply hop, Meter.charge_fits (by omega), hserved]
  dsimp only
  cases hbehind : behind a with
  | none =>
      refine ⟨_, rfl, rfl, rfl, ?_⟩
      rw [meterOf_afterCharge, hmeter]
      exact hpaid
  | some price =>
      rw [hbehind, Option.getD_some] at hfits
      -- There is room for both charges, so also for the second one behind the first.
      have hsecond : (((w.meterOf ctx).charged before).charge price).1 = .ok () := by
        refine Meter.charge_fits ?_
        rw [hpaid.bound, hpaid.consumed]
        omega
      dsimp only
      rw [hsecond]
      refine ⟨_, rfl, rfl, rfl, ?_⟩
      rw [meterOf_afterCharge, meterOf_afterCharge, hmeter]
      exact hpaid.append (((w.meterOf ctx).charged before).paid_charged price)

end World

/-! ## Stores -/

theorem Chain.memory_of_eq {c c' : Chain} (h : c'.memories = c.memories) (id : MemoryId) :
    c'.memory id = c.memory id := by
  unfold memory
  rw [h]

namespace Store

/-- What stands before a key of the store in the memory that the store reaches. -/
def path : Store → Bytes
  | memory _ => []
  | scope pre of => of.path ++ pre
  | outages _ of => of.path

/-- A request that has not been out was served, and an outage is no matter of memories. -/
theorem guarding_ok {α : Type} {place : Nat} {q : StoreRequest} {call : Attempt α} {a : α}
    {c c' : Chain} (h : guarding place q call c = (.ok (.ok a), c')) :
    ∃ c₁, call c₁ = (.ok (.ok a), c') ∧ c₁.memories = c.memories := by
  unfold guarding Outage.guarding at h
  rw [Attempt.bind_apply, Attempt.get_apply] at h
  dsimp only at h
  cases hout : c.storeOutages place q with
  | none =>
      rw [hout] at h
      exact ⟨c, h, rfl⟩
  | some o =>
      rw [hout] at h
      dsimp only at h
      rw [Attempt.bind_apply, Attempt.modify_apply] at h
      dsimp only at h
      -- An outage that strikes ends the request without success, and one that does not has counted
      -- it and lets it pass.
      by_cases hstrikes : o.strikes = true
      · rw [if_pos hstrikes] at h
        cases hfailure : o.failure with
        | panic p =>
            rw [hfailure] at h
            cases h
        | refuse e =>
            rw [hfailure] at h
            cases h
      · rw [if_neg hstrikes] at h
        exact ⟨_, h, rfl⟩

/-- A look-up meets the record behind the path of the store. -/
theorem get_ok {s : Store} {key : Bytes} {found : Option Bytes} {c c' : Chain}
    (h : s.get key c = (.ok (.ok found), c')) :
    found = (c.memory s.base).get? (s.path ++ key) := by
  -- Each scope puts its prefix before the key and hands the key down, so the key changes.
  induction s generalizing key c with
  | memory id =>
      cases h
      rfl
  | scope pre of ih =>
      rw [path, List.append_assoc]
      exact ih h
  | outages place of ih =>
      rcases guarding_ok h with ⟨c₁, hserved, hsame⟩
      rw [ih hserved, Chain.memory_of_eq hsame]
      rfl

/-- A write leaves the record behind the path of the store, and all others as they are. -/
theorem set_ok {s : Store} {key value : Bytes} {c c' : Chain}
    (h : s.set key value c = (.ok (.ok ()), c')) :
    c'.memory s.base = (c.memory s.base).set (s.path ++ key) value := by
  induction s generalizing key c with
  | memory id =>
      cases h
      exact Chain.memory_setMemory_self _ _ _
  | scope pre of ih =>
      rw [path, List.append_assoc]
      exact ih h
  | outages place of ih =>
      rcases guarding_ok h with ⟨c₁, hserved, hsame⟩
      change c'.memory of.base = (c.memory of.base).set (of.path ++ key) value
      rw [ih hserved, Chain.memory_of_eq hsame]

end Store

/-! ## Requests -/

namespace Host

variable {host : Host} {call : Handle} {key value : Bytes} {w w' : World} {ctx : Context}

theorem withContext_ok {α : Type} {serve : Context → World.Attempt α} {a : α} {gas : Report}
    (hlive : w.registry.lookup call = .ok ctx)
    (h : World.withContext call serve w = (.ok (.ok a, gas), w')) :
    serve ctx w = (.ok (.ok a), w') := by
  rw [World.withContext_live serve hlive] at h
  rcases hserved : serve ctx w with ⟨p | r, w₁⟩
  · rw [hserved] at h
    cases h
  · rw [hserved] at h
    cases h
    rfl

theorem onStore_ok {α : Type} {x : Store.Attempt α} {a : α}
    (h : World.onStore x w = (.ok (.ok a), w')) : x w.chain = (.ok (.ok a), w'.chain) := by
  rw [World.onStore_apply] at h
  rcases hx : x w.chain with ⟨p | e | b, c⟩
  · rw [hx] at h
    cases h
  · rw [hx] at h
    cases h
  · rw [hx] at h
    cases h
    rfl

/-- A write is an operation behind one charge, and nothing is sold after it. -/
theorem set_eq (host : Host) (call : Handle) (key value : Bytes) :
    host.set call key value = World.withContext call fun ctx =>
      World.priced ctx (host.prices.write key.size value.size)
        (World.onStore (ctx.binding.store.set key value)) fun _ => none := by
  unfold set World.priced
  simp only [bind_pure]

/-- A read that succeeds has looked up the record behind the path of the call's store. -/
theorem get_ok {found : Option Bytes} {gas : Report} (hlive : w.registry.lookup call = .ok ctx)
    (h : host.get call key w = (.ok (.ok found, gas), w')) :
    found = (w.chain.memory ctx.binding.store.base).get? (ctx.binding.store.path ++ key) := by
  rw [get_eq] at h
  have hop := World.Unmetered.onStore fun t => ctx.binding.store.get_ignores t key
  rcases World.priced_ok hop (withContext_ok hlive h) with ⟨w₁, hserved, -⟩
  exact Store.get_ok (onStore_ok hserved)

/-- A write that succeeds has left the record behind the path of the call's store. -/
theorem set_ok {gas : Report} (hlive : w.registry.lookup call = .ok ctx)
    (h : host.set call key value w = (.ok (.ok (), gas), w')) :
    w'.chain.memory ctx.binding.store.base =
      (w.chain.memory ctx.binding.store.base).set (ctx.binding.store.path ++ key) value := by
  rw [set_eq] at h
  have hop := World.Unmetered.onStore fun t => ctx.binding.store.set_ignores t key value
  rcases World.priced_ok hop (withContext_ok hlive h) with ⟨w₁, hserved, hsame⟩
  rw [Chain.memory_of_eq hsame]
  exact Store.set_ok (onStore_ok hserved)

variable {id : MemoryId} {pre : Bytes}

/-- A write succeeds if it can be paid for and the store answers. -/
theorem set_fits (hlive : w.registry.lookup call = .ok ctx)
    (hshows : ctx.binding.store.Shows id pre)
    (hfits : (w.meterOf ctx).consumed.toNat + (host.prices.write key.size value.size).toNat ≤
      (w.meterOf ctx).bound.toNat) :
    ∃ gas w', host.set call key value w = (.ok (.ok (), gas), w') ∧
      w'.registry = w.registry ∧
      (w.meterOf ctx).Paid (w'.meterOf ctx) (host.prices.write key.size value.size).toNat := by
  have hop := World.Unmetered.onStore fun t => ctx.binding.store.set_ignores t key value
  have hserved := World.onStore_apply (ctx.binding.store.set key value) w
  rw [hshows.set] at hserved
  rcases World.priced_fits (host.prices.write key.size value.size) (fun _ => none) hop hserved
    hfits with ⟨w', hset, hregistry, -, hpaid⟩
  rw [set_eq, World.withContext_live _ hlive, hset]
  exact ⟨_, w', rfl, hregistry, hpaid⟩

/-- A read of a record succeeds if it can be paid for and the store answers. -/
theorem get_fits (hlive : w.registry.lookup call = .ok ctx)
    (hshows : ctx.binding.store.Shows id pre)
    (hfound : ((w.chain.memory id).under pre).get? key = some value)
    (hfits : (w.meterOf ctx).consumed.toNat + (host.prices.read key.size).toNat +
      (host.prices.readOutput value.size).toNat ≤ (w.meterOf ctx).bound.toNat) :
    ∃ gas w', host.get call key w = (.ok (.ok (some value), gas), w') := by
  have hop := World.Unmetered.onStore fun t => ctx.binding.store.get_ignores t key
  have hserved := World.onStore_apply (ctx.binding.store.get key) w
  rw [hshows.get, hfound] at hserved
  rcases World.priced_fits (host.prices.read key.size)
    (fun found => (PricedAnswer.storage (.value found)).price? host.prices) hop hserved hfits with
    ⟨w', hget, -⟩
  rw [get_eq, World.withContext_live _ hlive, hget]
  exact ⟨_, w', rfl⟩

end Host

end ContractHost
