import ContractHost.Proofs.Chain.Payments
import ContractHost.Proofs.Run.Billing

/-!
# Coins of Refused Calls

A nested call pays its coins first, then looks for the callee. If the callee cannot be called, the
coins have been paid all the same, and they stay where they are. Nothing brings them back, since
the host has no notion of undoing what has been done on a chain, and nothing else happens either:
the world that the refusal leaves is the world that the payment has left.

What a plain call can be refused for behind a payment is what resolving the callee is refused for,
which is one of three things. The call lies too deep, there is no contract at the address, or the
code identifier of the contract is no checksum.

## Main definitions

* `Host.Unresolved`: Why a callee is not resolved.

## Theorems

* `Host.transfer_ok`: A transfer that goes through.
* `Host.resolveCall_refused`: A callee that is not resolved leaves the world as it is.
* `Host.refusal_keeps_payment`: A call that is refused behind its payment.
-/

namespace ContractHost

theorem Checksum.ofIdentifier_eq_error {b : Bytes} {e : HostError}
    (h : ofIdentifier b = .error e) :
    b.length ≠ size ∧ e = .invalidChecksum b.length := by
  unfold ofIdentifier ofBytes? at h
  by_cases hlength : b.length = 32
  · rw [dif_pos hlength] at h
    cases h
  · rw [dif_neg hlength] at h
    cases h
    exact ⟨hlength, rfl⟩

/-- What a contract address stands for is read from the table, and the chain stays as it is. -/
theorem Capabilities.inMemory_resolveCall_apply (querier : Querier) (ctx : Context)
    (contract store : String) (c : Chain) :
    (inMemory querier).resolveCall ctx contract store c =
      (.ok (match c.contracts.get? contract with
        | none => .error (.notFound ("contract " ++ contract))
        | some code => .ok ⟨code, ((Binding.new (.ofContract store) ctx.binding.meter
            querier).withStoreAddress store).withContract contract⟩), c) := by
  change Chain.resolveCall querier ctx contract store c = _
  unfold Chain.resolveCall
  rw [Attempt.bind_apply, Attempt.get_apply]
  dsimp only
  cases c.contracts.get? contract with
  | none => rfl
  | some code => rfl

namespace Host

variable {host : Host} {querier : Querier} {call : Handle} {w w' : World}

/-- A transfer that goes through is one of the capability, and nothing but the chain changes. -/
theorem transfer_ok {receiver payer : String} {coins : List Coin} {gas : Report}
    (h : host.transfer call receiver payer coins w = (.ok (.ok (), gas), w')) :
    ∃ ctx c, w.registry.lookup call = .ok ctx ∧
      host.capabilities.transfer ctx receiver payer coins w.chain = (.ok (.ok ()), c) ∧
      w' = { w with chain := c } := by
  unfold transfer at h
  cases hlookup : w.registry.lookup call with
  | error e =>
      rw [World.withContext_dead _ hlookup] at h
      cases h
  | ok ctx =>
      rw [World.withContext_live _ hlookup, World.onChain_apply] at h
      rcases hmoved : host.capabilities.transfer ctx receiver payer coins w.chain with
        ⟨p | e | _, c⟩
      · rw [hmoved] at h
        cases h
      · rw [hmoved] at h
        cases h
      · rw [hmoved] at h
        cases h
        exact ⟨ctx, c, rfl, hmoved, rfl⟩

/-- Why the callee of a call is not resolved: it would lie too deep, there is no contract, or the
    code identifier of the contract is no checksum. -/
inductive Unresolved (host : Host) (ctx : Context) (contract : String) (c : Chain) :
    HostError → Prop
  | deep : host.maxDepth < ctx.childDepth →
      Unresolved host ctx contract c (.callDepthExceeded ctx.childDepth host.maxDepth)
  | absent : ¬ host.maxDepth < ctx.childDepth → c.contracts.get? contract = none →
      Unresolved host ctx contract c (.notFound ("contract " ++ contract))
  | malformed {code : Bytes} : ¬ host.maxDepth < ctx.childDepth →
      c.contracts.get? contract = some code → code.length ≠ Checksum.size →
      Unresolved host ctx contract c (.invalidChecksum code.length)

/-- A callee that is not resolved has one of these reasons, costs nothing and leaves the world as
    it is. -/
theorem resolveCall_refused (hcap : host.capabilities = .inMemory querier) {ctx : Context}
    (hlive : w.registry.lookup call = .ok ctx) {contract store : String}
    (hnone : ∀ child gas, (host.resolveCall call contract store w).1 ≠ .ok (.ok child, gas)) :
    ∃ e, host.Unresolved ctx contract w.chain e ∧
      host.resolveCall call contract store w = (.ok (.error e, .free), w) := by
  unfold resolveCall at hnone ⊢
  rw [World.withContext_live _ hlive] at hnone ⊢
  -- The depth is looked at first, then the table, and the code identifier last.
  by_cases hdeep : host.maxDepth < ctx.childDepth
  · refine ⟨_, .deep hdeep, ?_⟩
    rw [if_pos hdeep, Attempt.throw_apply]
    dsimp only
    rw [Word.sub_self]
    rfl
  · rw [if_neg hdeep, Attempt.bind_apply, World.onChain_apply, hcap] at hnone ⊢
    rw [Capabilities.inMemory_resolveCall_apply] at hnone ⊢
    cases hcode : w.chain.contracts.get? contract with
    | none =>
        refine ⟨_, .absent hdeep hcode, ?_⟩
        dsimp only
        rw [Word.sub_self]
        rfl
    | some code =>
        rw [hcode] at hnone
        dsimp only at hnone ⊢
        rw [Attempt.bind_apply, Attempt.ofExcept_apply] at hnone ⊢
        cases hsum : Checksum.ofIdentifier code with
        | error e =>
            rcases Checksum.ofIdentifier_eq_error hsum with ⟨hlength, rfl⟩
            refine ⟨_, .malformed hdeep hcode hlength, ?_⟩
            dsimp only
            rw [Word.sub_self]
            rfl
        | ok checksum =>
            -- Behind the checksum nothing is refused, so the callee would have been resolved.
            rw [hsum] at hnone
            exact absurd rfl (hnone _ _)

/-- A plain call that has paid its coins goes on with the callee. -/
theorem openCall_of_paid {request : ContractCall} (hplain : request.delegate = false)
    (hfunds : request.funds ≠ []) {payGas : Report}
    (hpaid : host.transfer call request.contract request.sender request.funds w =
      (.ok (.ok (), payGas), w')) :
    host.openCall call request w =
      match host.resolveCall call request.contract request.contract w' with
      | (.error p, w₂) => (.error p, w₂)
      | (.ok (r, gas), w₂) => (.ok (r, payGas + gas), w₂) := by
  have hpays : ¬ (request.delegate = true ∨ request.funds.isEmpty = true) := by
    rw [hplain, List.isEmpty_iff]
    rintro (h | h)
    · cases h
    · exact hfunds h
  -- A plain call is for the storage of its own contract, which needs no looking up.
  have hstore : storeAddressFor call request w' = .ok request.contract := by
    unfold storeAddressFor
    rw [hplain]
    rfl
  unfold openCall payFunds
  rw [Action.bind_apply, if_neg hpays, hpaid]
  dsimp only
  rw [Action.bind_apply, Action.get_apply]
  dsimp only
  rw [hstore]
  dsimp only
  rw [Action.bind_apply]
  rcases host.resolveCall call request.contract request.contract w' with ⟨p | ⟨r, gas⟩, w₂⟩
  · rfl
  · rfl

/-- A plain call that is refused behind the payment of its coins, before anything runs, is refused
    because its callee is not resolved. It leaves the world that the payment has left: the coins
    have been moved from the sender to the callee, all of them, and besides the chain nothing has
    changed. -/
theorem refusal_keeps_payment (hcap : host.capabilities = .inMemory querier)
    {request : ContractCall} (hplain : request.delegate = false) (hfunds : request.funds ≠ [])
    {payGas : Report} {w₁ : World}
    (hpaid : host.transfer call request.contract request.sender request.funds w =
      (.ok (.ok (), payGas), w₁))
    (hnone : host.started? call request w = none) (engine : Engine) :
    ∃ ctx e, w.registry.lookup call = .ok ctx ∧
      host.Unresolved ctx request.contract w₁.chain e ∧
      host.callContract engine call request w = (.ok (.error e, payGas), w₁) ∧
      w.chain.ledger.Paid request.sender request.contract request.funds w₁.chain.ledger ∧
      w₁ = { w with chain := w₁.chain } := by
  rcases transfer_ok hpaid with ⟨ctx, c, hlive, hmoved, rfl⟩
  rw [hcap] at hmoved
  have hopen := openCall_of_paid hplain hfunds hpaid
  -- If the callee were resolved, a run would start.
  have hunresolved : ∀ child gas,
      (host.resolveCall call request.contract request.contract { w with chain := c }).1 ≠
        .ok (.ok child, gas) := by
    intro child gas hresolved
    unfold started? at hnone
    rw [hopen, ← Prod.eta (host.resolveCall call _ _ _), hresolved] at hnone
    cases hnone
  rcases resolveCall_refused hcap (w := { w with chain := c }) hlive hunresolved with
    ⟨e, hreason, hrefused⟩
  refine ⟨ctx, e, hlive, hreason, ?_, Chain.transfer_paid hmoved, rfl⟩
  rw [callContract_apply, hopen, hrefused]
  dsimp only
  rw [World.Billed.add_free]

end Host

/-- A world in which the contract of the live call has a hundred of a denomination. -/
def World.endowed : World :=
  { World.small with
    chain := { World.small.chain with ledger := Ledger.put .empty "a" "ucc" (.clamp 100) } }

/-- A call with coins of a contract that does not exist. -/
def ContractCall.astray : ContractCall := ⟨"c", false, "a", [⟨"ucc", "40"⟩], [], [], 1000⟩

/-- The coins of the call are paid, and then it is refused before anything runs. -/
theorem Host.astray_refused : ∃ w₁ w',
    Host.small.transfer ⟨1⟩ "c" "a" [⟨"ucc", "40"⟩] .endowed = (.ok (.ok (), ⟨0, 100⟩), w₁) ∧
    Host.small.started? ⟨1⟩ .astray .endowed = none ∧
    Host.small.callContract (Script.engine .small) ⟨1⟩ .astray .endowed =
      (.ok (.error (.notFound "contract c"), ⟨0, 100⟩), w') ∧
    (w'.chain.ledger.balance "a" "ucc").value = 60 := by
  have hpaid : (Host.small.transfer ⟨1⟩ "c" "a" [⟨"ucc", "40"⟩] .endowed).1 =
      .ok (.ok (), ⟨0, 100⟩) := by decide +kernel
  have hnone : (Host.small.started? ⟨1⟩ .astray .endowed).isNone = true := by decide +kernel
  have hrefused : (Host.small.callContract (Script.engine .small) ⟨1⟩ .astray .endowed).1 =
      .ok (.error (.notFound "contract c"), ⟨0, 100⟩) := by decide +kernel
  have hleft : ((Host.small.callContract (Script.engine .small) ⟨1⟩ .astray
      .endowed).2.chain.ledger.balance "a" "ucc").value = 60 := by decide +kernel
  rcases hcall : Host.small.callContract (Script.engine .small) ⟨1⟩ .astray .endowed with ⟨x, w'⟩
  rw [hcall] at hrefused hleft
  cases hrefused
  exact ⟨_, w', Prod.ext hpaid rfl, Option.isNone_iff_eq_none.mp hnone, rfl, hleft⟩

/-- The forty are with the contract that does not exist. -/
theorem Host.refusal_keeps_payment_of_absent : ∃ w₁,
    Host.small.callContract (Script.engine .small) ⟨1⟩ .astray .endowed =
      (.ok (.error (.notFound "contract c"), ⟨0, 100⟩), w₁) ∧
    World.endowed.chain.ledger.Paid "a" "c" [⟨"ucc", "40"⟩] w₁.chain.ledger := by
  rcases Host.astray_refused with ⟨w₁, w', hpaid, hnone, hrefused, -⟩
  have hcap : Host.small.capabilities = .inMemory (.answering 1) := rfl
  have hfunds : ContractCall.astray.funds ≠ [] := List.cons_ne_nil _ _
  rcases Host.refusal_keeps_payment hcap rfl hfunds hpaid hnone (Script.engine .small) with
    ⟨_, e, -, -, hkept, hmoved, -⟩
  rw [hkept] at hrefused
  cases hrefused
  exact ⟨w₁, hkept, hmoved⟩

/-- So a call that is refused before anything runs may have changed balances. -/
theorem Host.refusal_moves_funds :
    ¬ ∀ (host : Host) (querier : Querier) (engine : Engine) (call : Handle)
      (request : ContractCall) (w w₁ w' : World) (payGas gas : Report) (e : HostError),
      host.capabilities = .inMemory querier → request.delegate = false → request.funds ≠ [] →
      host.transfer call request.contract request.sender request.funds w =
        (.ok (.ok (), payGas), w₁) →
      host.started? call request w = none →
      host.callContract engine call request w = (.ok (.error e, gas), w') →
      ∀ address denom, w'.chain.ledger.balance address denom =
        w.chain.ledger.balance address denom := by
  intro h
  rcases Host.astray_refused with ⟨w₁, w', hpaid, hnone, hrefused, hleft⟩
  have hcap : Host.small.capabilities = .inMemory (.answering 1) := rfl
  have hfunds : ContractCall.astray.funds ≠ [] := List.cons_ne_nil _ _
  -- The contract has had a hundred.
  rw [h _ _ _ _ _ _ _ _ _ _ _ hcap rfl hfunds hpaid hnone hrefused "a" "ucc"] at hleft
  revert hleft
  decide +kernel

end ContractHost
