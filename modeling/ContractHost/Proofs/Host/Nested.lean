import ContractHost.Host.Engine
import ContractHost.Proofs.Host.Requests

/-!
# Nested Calls Step by Step

Running another contract takes several requests in a row, each of which can end the whole
thing. This file takes the row apart, once, so that no later proof has to unfold it.

Every stage has an inversion lemma that says all there is to say about it. If a call has been
resolved, then the call that asks was live and not too deep, the capability gave a code
identifier and a binding, the identifier was a checksum, and the registry has registered
exactly one call below the context of the call that asks: nothing else can have happened.
For what ends badly the registry is as it was.

The engine itself is a parameter of a nested call. `callContract_apply` says where it
runs: in the world that the call has been opened in, and before the release.

## Theorems

* `World.charge_apply`, `World.onStore_apply`: A charge, and a request to a store.
* `Host.resolveCall_cases`: Resolving a nested call.
* `Host.openCall_cases`, `Host.openCall_registers`: Everything before the callee runs.
* `Host.callContract_apply`, `Host.run_apply`: Where the engine runs.
* `Host.callContract_ended`: How a nested call ends.
-/

namespace ContractHost

namespace World

variable {α : Type}

/-- An attempt on the chain leaves the rest of the world alone. -/
theorem onChain_apply (x : Chain.Attempt HostError α) (w : World) :
    onChain x w = ((x w.chain).1, { w with chain := (x w.chain).2 }) := rfl

/-- So does a request to a store, and its refusals become those of the host. -/
theorem onStore_apply (x : Store.Attempt α) (w : World) :
    onStore x w =
      ((x w.chain).1.map (Except.mapError HostError.ofStore),
        { w with chain := (x w.chain).2 }) := by
  unfold onStore
  rw [onChain_apply, Attempt.mapError_apply]

/-- A request to a store that only reads. -/
theorem onStore_apply_of_eq {x : Store.Attempt α} {w : World}
    {r : Except Panic (Except StoreError α)} (h : x w.chain = (r, w.chain)) :
    onStore x w = (r.map (Except.mapError HostError.ofStore), w) := by
  rw [onStore_apply, h]

/-- The world after a charge on the meter of a call, refused or not. -/
def afterCharge (w : World) (ctx : Context) (amount : UInt64) : World :=
  { w with chain := w.chain.setMeter ctx.binding.meter ((w.meterOf ctx).charged amount) }

/-- A charge is put on the meter of the call, refused or not. -/
theorem charge_apply (ctx : Context) (amount : UInt64) (w : World) :
    charge ctx amount w = (.ok ((w.meterOf ctx).charge amount).1, w.afterCharge ctx amount) :=
  rfl

end World

namespace Host

/-- Resolving a call registers nothing and hands no call out, or it ends well, which it does
    in one way only. -/
theorem resolveCall_cases {host : Host} {call : Handle} {contract store : String} {w w' : World}
    {x : Except Panic (Metered ResolvedCall)}
    (h : host.resolveCall call contract store w = (x, w')) :
    (w'.registry = w.registry ∧ ∀ child gas, x ≠ .ok (.ok child, gas)) ∨
      ∃ ctx found c checksum gas, w.registry.lookup call = .ok ctx ∧
        ¬ host.maxDepth < ctx.childDepth ∧
        host.capabilities.resolveCall ctx contract store w.chain = (.ok (.ok found), c) ∧
        Checksum.ofIdentifier found.code = .ok checksum ∧
        x = .ok (.ok ⟨checksum, (w.registry.registerChild ctx found.binding).1⟩, gas) ∧
        w' = { w with chain := c, registry := (w.registry.registerChild ctx found.binding).2 } := by
  unfold resolveCall at h
  cases hlookup : w.registry.lookup call with
  | error e =>
      rw [World.withContext_dead _ hlookup] at h
      cases h
      exact Or.inl ⟨rfl, fun _ _ heq => by cases heq⟩
  | ok ctx =>
      rw [World.withContext_live _ hlookup] at h
      by_cases hdeep : host.maxDepth < ctx.childDepth
      · -- Too deep a call is refused before anything is asked.
        simp only [if_pos hdeep, Attempt.throw_apply] at h
        cases h
        exact Or.inl ⟨rfl, fun _ _ heq => by cases heq⟩
      · simp only [if_neg hdeep, Attempt.bind_apply, World.onChain_apply] at h
        -- The capability has the chain and nothing else, whatever it answers.
        rcases hcap : host.capabilities.resolveCall ctx contract store w.chain with
          ⟨p | e | found, c⟩
        · simp only [hcap] at h
          cases h
          exact Or.inl ⟨rfl, fun _ _ heq => by cases heq⟩
        · simp only [hcap] at h
          cases h
          exact Or.inl ⟨rfl, fun _ _ heq => by cases heq⟩
        · simp only [hcap, Attempt.ofExcept_apply] at h
          -- The call is registered behind the last thing that can be refused, the length of the
          -- code.
          cases hsum : Checksum.ofIdentifier found.code with
          | error e =>
              simp only [hsum] at h
              cases h
              exact Or.inl ⟨rfl, fun _ _ heq => by cases heq⟩
          | ok checksum =>
              simp only [hsum, Attempt.get_apply, Attempt.set_apply, Attempt.pure_apply,
                World.registerChild] at h
              cases h
              exact Or.inr ⟨ctx, found, c, checksum, _, rfl, hdeep, hcap, hsum, rfl, rfl⟩

theorem payFunds_within {Q : Chain → Chain → Prop} {R : World → World → Prop}
    (hR : World.Follows Q R) (host : Host) (hcap : host.capabilities.Within Q) (call : Handle)
    (request : ContractCall) : (host.payFunds call request).Within R := by
  unfold payFunds
  split
  · exact .pure hR.steady _
  · exact transfer_within hR host hcap call request.contract request.sender request.funds

/-- Opening a call ends with the coins, and then nothing but the coins has been moved, or it
    goes on to the storage and ends with what resolving the call comes to. -/
theorem openCall_cases {host : Host} {call : Handle} {request : ContractCall} {w w' : World}
    {x : Except Panic (Metered ResolvedCall)} (h : host.openCall call request w = (x, w')) :
    (∃ paid, host.payFunds call request w = (paid, w') ∧
        ((∃ p, paid = .error p ∧ x = .error p) ∨
          ∃ r e gas, paid = .ok (r, gas) ∧ x = .ok (.error e, gas))) ∨
      ∃ w₁ payGas store resolved,
        host.payFunds call request w = (.ok (.ok (), payGas), w₁) ∧
        storeAddressFor call request w₁ = .ok store ∧
        host.resolveCall call request.contract store w₁ = (resolved, w') ∧
        x = resolved.map fun r => (r.1, payGas + r.2) := by
  unfold openCall at h
  rw [Action.bind_apply] at h
  -- The coins come first, and the storage is looked for in the world that they have left.
  rcases hpay : host.payFunds call request w with ⟨p | ⟨e | paid, payGas⟩, w₁⟩
  · rw [hpay] at h
    cases h
    exact Or.inl ⟨_, rfl, Or.inl ⟨p, rfl, rfl⟩⟩
  · rw [hpay] at h
    cases h
    exact Or.inl ⟨_, rfl, Or.inr ⟨_, e, payGas, rfl, rfl⟩⟩
  · simp only [hpay, Action.bind_apply, Action.get_apply] at h
    cases hstore : storeAddressFor call request w₁ with
    | error e =>
        rw [hstore] at h
        cases h
        exact Or.inl ⟨_, rfl, Or.inr ⟨_, e, payGas, rfl, rfl⟩⟩
    | ok store =>
        simp only [hstore, Action.bind_apply] at h
        rcases hresolve : host.resolveCall call request.contract store w₁ with
          ⟨p | ⟨r, used⟩, w₂⟩
        · rw [hresolve] at h
          cases h
          exact Or.inr ⟨w₁, payGas, store, _, rfl, hstore, hresolve, rfl⟩
        · rw [hresolve] at h
          cases h
          exact Or.inr ⟨w₁, payGas, store, _, rfl, hstore, hresolve, rfl⟩

/-- Opening a call leaves the registry alone and hands no call out, or registers the one call
    that it hands out, below the call that asks, with the binding that the capability has found. -/
theorem openCall_registers {host : Host} {call : Handle} {request : ContractCall} {w w' : World}
    {x : Except Panic (Metered ResolvedCall)} (h : host.openCall call request w = (x, w')) :
    (w'.registry = w.registry ∧ ∀ child gas, x ≠ .ok (.ok child, gas)) ∨
      ∃ ctx found store c c' checksum gas, w.registry.lookup call = .ok ctx ∧
        host.capabilities.resolveCall ctx request.contract store c = (.ok (.ok found), c') ∧
        x = .ok (.ok ⟨checksum, (w.registry.registerChild ctx found.binding).1⟩, gas) ∧
        w'.registry = (w.registry.registerChild ctx found.binding).2 := by
  have hpaid := (payFunds_within (World.follows_calm Chain.harmless_trivial.steady) host
    host.capabilities.within_trivial call request w).registry
  rcases openCall_cases h with ⟨paid, hpay, hended⟩ | ⟨w₁, payGas, store, r, hpay, -, hresolve, hx⟩
  · rw [hpay] at hpaid
    refine Or.inl ⟨hpaid, fun child gas heq => ?_⟩
    rcases hended with ⟨p, -, hx⟩ | ⟨_, e, _, -, hx⟩
    · rw [hx] at heq
      cases heq
    · rw [hx] at heq
      cases heq
  · rw [hpay] at hpaid
    rcases resolveCall_cases hresolve with
      ⟨hsame, hnone⟩ | ⟨ctx, found, c, checksum, gas, hlive, -, hfound, -, hr, hw'⟩
    · refine Or.inl ⟨hsame.trans hpaid, fun child gas heq => ?_⟩
      rw [hx] at heq
      rcases r with p | ⟨e | child', used⟩
      · cases heq
      · cases heq
      · exact hnone child' used rfl
    · -- The coins have left the registry alone, so the call is registered in the one from before.
      refine Or.inr
        ⟨ctx, found, store, _, c, checksum, payGas + gas, hpaid ▸ hlive, hfound, ?_, ?_⟩
      · rw [hx, hr, ← hpaid]
        rfl
      · rw [hw', ← hpaid]

/-- A nested call that has been opened is released behind its callee, however that ends. -/
theorem callContract_apply (host : Host) (engine : Engine) (call : Handle)
    (request : ContractCall) (w : World) :
    host.callContract engine call request w = match host.openCall call request w with
      | (.error p, w₁) => (.error p, w₁)
      | (.ok (.error e, gas), w₁) => (.ok (.error e, gas), w₁)
      | (.ok (.ok child, gas), w₁) =>
        match engine (nestedInvocation host request child.checksum) child.call w₁ with
        | (.error p, w₂) => (.error p, w₂.release child.call)
        | (.ok (r, used), w₂) => (.ok (r, gas + used), w₂.release child.call) := by
  unfold callContract
  rw [Action.bind_apply]
  rcases host.openCall call request w with ⟨p | ⟨e | child, gas⟩, w₁⟩
  · rfl
  · rfl
  · simp only [Action.bind_apply, World.guarding, Action.ensuring_apply]
    rcases engine (nestedInvocation host request child.checksum) child.call w₁ with
      ⟨p | ⟨r, used⟩, w₂⟩
    · rfl
    · rfl

/-- A nested call ends as its opening does, if that is refused, and else as its callee does. -/
theorem callContract_ended {host : Host} {engine : Engine} {call : Handle}
    {request : ContractCall} {r : Except HostError Bytes} {gas : Report} {w w' : World}
    (h : host.callContract engine call request w = (.ok (r, gas), w')) :
    (∃ e used w₁, r = .error e ∧ host.openCall call request w = (.ok (.error e, used), w₁)) ∨
      ∃ child used w₁ used' w₂, host.openCall call request w = (.ok (.ok child, used), w₁) ∧
        engine (nestedInvocation host request child.checksum) child.call w₁ =
          (.ok (r, used'), w₂) := by
  rw [callContract_apply] at h
  rcases hopen : host.openCall call request w with ⟨p | ⟨e | child, used⟩, w₁⟩
  · rw [hopen] at h
    cases h
  · rw [hopen] at h
    cases h
    exact .inl ⟨e, _, _, rfl, rfl⟩
  · rw [hopen] at h
    dsimp only at h
    rcases hrun : engine (nestedInvocation host request child.checksum) child.call w₁ with
      ⟨p | ⟨r', used'⟩, w₂⟩
    · rw [hrun] at h
      cases h
    · rw [hrun] at h
      cases h
      exact .inr ⟨child, used, w₁, used', w₂, rfl, hrun⟩

/-- A run registers a call, lets the engine work, and releases the call, however that ends. -/
theorem run_apply (host : Host) (engine : Engine) (binding : Binding) (request : Request)
    (w : World) :
    host.run engine binding request w =
      ((engine (host.topInvocation request) (w.register binding).1 (w.register binding).2).1,
        (engine (host.topInvocation request) (w.register binding).1
          (w.register binding).2).2.release (w.register binding).1) := by
  unfold run
  rw [Action.bind_apply, Action.get_apply]
  dsimp only
  rw [Action.bind_apply, Action.set_apply]
  rfl

end Host

end ContractHost
