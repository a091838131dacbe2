import ContractHost.Host.InMemory
import ContractHost.Proofs.Host.Inquiry

/-!
# Reasons of Refusals

A refusal crosses a boundary under one of three codes, and this file says which parts of a
request can be refused under which. Meters run out of gas. Stores, addresses and coins have
reasons of their own, none of which is that something is missing or that an engine has failed. So
on capabilities in memory there are few inquiries that are refused for one of these two reasons.
What can be missing is the call itself, the cursor of a step, and the contract of a nested call.
And since a querier may refuse a query with any error it likes, there is whatever the querier
says.

## Main definitions

* `HostError.Routine`: A refusal of the host's own.
* `Inquiry.Lacks`: Something is missing for an inquiry.

## Theorems

* `World.charge_refuses`, `World.onStore_refuses`: Meters and stores.
* `Chain.transferCoin_refuses`, `Chain.createContract_refuses`: Capabilities in memory.
* `Host.answer_cases`: Why an inquiry is refused.
* `Host.answer_misses`: What can be missing for an inquiry of a live call.
* `Host.answer_engine`: An inquiry refused with the failure of an engine.
-/

namespace ContractHost

namespace HostError

/-- The refusal does not say that something is missing. -/
def Present (e : HostError) : Prop := e.code ≠ .notFound

/-- The refusal says that an engine has failed. -/
def OfEngine (e : HostError) : Prop := ∃ text, e = engine text

/-- The refusal is of another kind, and not one of an engine. -/
def Plain (e : HostError) : Prop := e.code = .other ∧ ¬ e.OfEngine

/-- The refusal is one of the host's own: nothing is missing for it, and no engine has failed. -/
def Routine (e : HostError) : Prop := e.Present ∧ ¬ e.OfEngine

/-- Nothing is missing where another reason is given. -/
theorem present_of_other {e : HostError} (h : e.code = .other) : e.Present := by
  unfold Present
  rw [h]
  exact nofun

theorem code_ofEngine {e : HostError} (h : e.OfEngine) : e.code = .other := by
  rcases h with ⟨text, rfl⟩
  rfl

/-- Want of gas is a reason of the host's own. -/
theorem routine_of_outOfGas {e : HostError} (h : e.code = .outOfGas) : e.Routine := by
  refine ⟨?_, fun hengine => ?_⟩
  · unfold Present
    rw [h]
    exact nofun
  · rw [code_ofEngine hengine] at h
    cases h

theorem Plain.routine {e : HostError} (h : e.Plain) : e.Routine := ⟨present_of_other h.1, h.2⟩

/-- A plain refusal is not for want of gas. -/
theorem Plain.not_outOfGas {e : HostError} (h : e.Plain) : e.code ≠ .outOfGas := by
  rw [h.1]
  exact nofun

theorem plain_ofStore (e : StoreError) : (ofStore e).Plain := by
  cases e with
  | invalidRange => exact ⟨rfl, nofun⟩
  | invalidOrder value => exact ⟨rfl, nofun⟩
  | backend text => exact ⟨rfl, nofun⟩

end HostError

/-! ## Parts of requests -/

theorem Chain.charge_refuses (id : MeterId) (amount : UInt64) :
    (Chain.charge id amount).Refuses fun e => e.code = .outOfGas := by
  intro c e h
  rw [charge_apply] at h
  change Except.ok (if ((c.meter id).charged amount).isOver then _ else _) = _ at h
  -- A charge that is paid is no refusal.
  split at h
  · cases h
    rfl
  · cases h

namespace World

theorem charge_refuses (ctx : Context) (amount : UInt64) :
    (charge ctx amount).Refuses fun e => e.code = .outOfGas :=
  .focus (Chain.charge_refuses ctx.binding.meter amount)

/-- Whatever a store refuses, it is for another reason. -/
theorem onStore_refuses {α : Type} (x : Store.Attempt α) :
    (onStore x).Refuses HostError.Plain := by
  intro w e h
  rw [onStore_apply] at h
  rcases hx : x w.chain with ⟨p | e' | a, c⟩
  · rw [hx] at h
    cases h
  · rw [hx] at h
    cases h
    exact HostError.plain_ofStore e'
  · rw [hx] at h
    cases h

/-- A request of a live call is refused for the reasons for which serving it is. -/
theorem withContext_refuses {α : Type} {P : HostError → Prop} {h : Handle}
    {serve : Context → Attempt α} {w w' : World} {ctx : Context} {e : HostError} {gas : Report}
    (hlive : w.registry.lookup h = .ok ctx) (hserve : (serve ctx).Refuses P)
    (hrefused : withContext h serve w = (.ok (.error e, gas), w')) : P e := by
  rw [withContext_live serve hlive] at hrefused
  rcases hserved : serve ctx w with ⟨p | r, w''⟩
  · rw [hserved] at hrefused
    cases hrefused
  · rw [hserved] at hrefused
    cases hrefused
    exact hserve w e (by rw [hserved])

/-- A call that is not live is missing. -/
theorem code_of_dead {h : Handle} {w : World} {e : HostError}
    (hdead : w.registry.lookup h = .error e) : e.code = .notFound := by
  unfold Registry.lookup at hdead
  split at hdead
  · cases hdead
  · cases hdead
    rfl

end World

/-- Whatever does not fit in an address, it is the capability that refuses it. -/
theorem Address.canonical_api {human : String} {e : HostError}
    (h : Address.canonical human = .error e) : ∃ text, e = .api text := by
  unfold canonical at h
  cases hrest : Bytes.rest? (Utf8.encode mark) (Utf8.encode human) with
  | none =>
      rw [hrest] at h
      cases h
      exact ⟨_, rfl⟩
  | some digits =>
      simp only [hrest] at h
      rcases hdecode : Hex.decode digits with fault | ⟨_ | ⟨b, bytes⟩⟩
      · rw [hdecode] at h
        cases h
        exact ⟨_, rfl⟩
      · rw [hdecode] at h
        cases h
        exact ⟨_, rfl⟩
      · rw [hdecode] at h
        cases h

/-- Only an address without bytes has no human form. -/
theorem Address.human_api {canonical : Bytes} {e : HostError}
    (h : Address.human canonical = .error e) : canonical = [] ∧ ∃ text, e = .api text := by
  unfold human at h
  by_cases hempty : canonical.isEmpty = true
  · rw [if_pos hempty] at h
    cases h
    exact ⟨List.isEmpty_iff.mp hempty, _, rfl⟩
  · rw [if_neg hempty] at h
    cases h

/-- The refusal of a capability is a plain one. -/
theorem Address.canonical_refuses {human : String} {e : HostError}
    (h : Address.canonical human = .error e) : e.Plain := by
  rcases canonical_api h with ⟨text, rfl⟩
  exact ⟨rfl, nofun⟩

theorem Address.human_refuses {canonical : Bytes} {e : HostError}
    (h : Address.human canonical = .error e) : e.Plain := by
  rcases human_api h with ⟨-, text, rfl⟩
  exact ⟨rfl, nofun⟩

theorem Coin.parse_refuses {coin : Coin} {e : HostError} (h : coin.parse = .error e) : e.Plain := by
  unfold parse at h
  cases hparse : Amount.parse? coin.amount with
  | none =>
      rw [hparse] at h
      cases h
      exact ⟨rfl, nofun⟩
  | some a =>
      rw [hparse] at h
      cases h

theorem Checksum.ofIdentifier_refuses {b : Bytes} {e : HostError} (h : ofIdentifier b = .error e) :
    e.Plain := by
  unfold ofIdentifier at h
  cases hsum : ofBytes? b with
  | none =>
      rw [hsum] at h
      cases h
      exact ⟨rfl, nofun⟩
  | some c =>
      rw [hsum] at h
      cases h

/-! ## Capabilities in memory -/

namespace Chain

/-- A transfer fails for want of gas, by an amount that is none, or for want of coins. -/
theorem transferCoin_refuses (meter : MeterId) (receiver payer : String) (coin : Coin) :
    (transferCoin meter receiver payer coin).Refuses HostError.Routine := by
  refine .bind (.mono (charge_refuses meter transferCost) fun _ => HostError.routine_of_outOfGas)
    (fun _ => ?_)
  refine .bind (.ofExcept fun e h => (Coin.parse_refuses h).routine)
    (fun a => .bind (.get _) (fun c => ?_))
  -- What is left to be refused is that the payer has too little.
  cases c.ledger.move payer receiver coin.denom a with
  | none => exact .throw ⟨nofun, nofun⟩
  | some ledger => exact .set _ _

theorem createContract_refuses (meter : MeterId) (request : CreateRequest) :
    (createContract meter request).Refuses HostError.Routine :=
  .bind (.mono (charge_refuses meter createCost) fun _ => HostError.routine_of_outOfGas)
    (fun _ => .bind (.get _) (fun _ => .bind (.set _ _) (fun _ => .pure _ _)))

end Chain

/-! ## Requests -/

/-- Something is missing for the inquiry: its call, the cursor of a step, or the contract of a
    nested call. -/
def Inquiry.Lacks (q : Inquiry) (w : World) : Prop :=
  (∃ e, w.registry.lookup q.call = .error e) ∨
    (∃ cursor ctx, q = .next cursor ∧ w.registry.lookup cursor.call = .ok ctx ∧
      (w.frameOf ctx).cursor? cursor.number = none) ∨
    ∃ call contract store, q = .resolveCall call contract store ∧
      w.chain.contracts.get? contract = none

namespace Host

variable {host : Host} {querier : Querier} {e : HostError} {gas : Report} {w w' : World}
  {ctx : Context}

theorem charge_routine (ctx : Context) (amount : UInt64) :
    (World.charge ctx amount).Refuses HostError.Routine :=
  .mono (World.charge_refuses ctx amount) fun _ => HostError.routine_of_outOfGas

theorem onStore_routine {α : Type} (x : Store.Attempt α) :
    (World.onStore x).Refuses HostError.Routine :=
  .mono (World.onStore_refuses x) fun _ => HostError.Plain.routine

/-- A step is refused for a reason of the host's own, or its cursor is missing. -/
theorem move_refuses {number : UInt64} (h : (host.move ctx number w).1 = .ok (.error e)) :
    e.Routine ∨ (e.code = .notFound ∧ (w.frameOf ctx).cursor? number = none) := by
  unfold move at h
  rw [Attempt.bind_apply, World.charge_apply] at h
  cases hcharge : ((w.meterOf ctx).charge host.prices.iterNext).1 with
  | error e' =>
      rw [hcharge] at h
      cases h
      exact .inl (charge_routine ctx host.prices.iterNext w _ (by rw [World.charge_apply, hcharge]))
  | ok paid =>
      rw [hcharge] at h
      dsimp only at h
      rw [Attempt.bind_apply, Attempt.get_apply] at h
      dsimp only at h
      -- The charge has left the frame alone.
      rw [show (w.afterCharge ctx host.prices.iterNext).frameOf ctx = w.frameOf ctx from rfl] at h
      cases hcursor : (w.frameOf ctx).cursor? number with
      | none =>
          rw [hcursor] at h
          cases h
          exact .inr ⟨rfl, rfl⟩
      | some c =>
          rw [hcursor] at h
          left
          -- Behind a cursor that is found only its store and the second charge can refuse.
          refine (Attempt.Refuses.bind (onStore_routine _) fun stepped => ?_) _ e h
          refine .bind (.modify _ _) (fun _ => ?_)
          cases stepped.1 with
          | none => exact .pure _ _
          | some found => exact .bind (charge_routine ctx _) (fun _ => .pure _ _)

/-- A nested call is refused for a reason of the host's own, or its contract is missing. -/
theorem resolveCall_refuses (hcap : host.capabilities = .inMemory querier) {call : Handle}
    {contract store : String} (hlive : w.registry.lookup call = .ok ctx)
    (h : host.resolveCall call contract store w = (.ok (.error e, gas), w')) :
    e.Routine ∨ (e.code = .notFound ∧ w.chain.contracts.get? contract = none) := by
  unfold resolveCall at h
  rw [World.withContext_live _ hlive] at h
  by_cases hdeep : host.maxDepth < ctx.childDepth
  · -- Too deep a call is refused by the host itself.
    simp only [if_pos hdeep, Attempt.throw_apply] at h
    cases h
    exact .inl ⟨nofun, nofun⟩
  · simp only [if_neg hdeep, Attempt.bind_apply, World.onChain_apply] at h
    cases hcode : w.chain.contracts.get? contract with
    | none =>
        have hnone : host.capabilities.resolveCall ctx contract store w.chain =
            (.ok (.error (.notFound ("contract " ++ contract))), w.chain) := by
          rw [hcap]
          change Chain.resolveCall querier ctx contract store w.chain = _
          unfold Chain.resolveCall
          rw [Attempt.bind_apply, Attempt.get_apply]
          dsimp only
          rw [hcode]
          rfl
        rw [hnone] at h
        cases h
        exact .inr ⟨rfl, rfl⟩
    | some code =>
        -- What is left to be refused is the length of the code identifier.
        have hfound : ∃ found, host.capabilities.resolveCall ctx contract store w.chain =
            (.ok (.ok found), w.chain) := by
          rw [hcap]
          change ∃ found, Chain.resolveCall querier ctx contract store w.chain = _
          unfold Chain.resolveCall
          rw [Attempt.bind_apply, Attempt.get_apply]
          dsimp only
          rw [hcode]
          exact ⟨_, rfl⟩
        rcases hfound with ⟨found, hfound⟩
        simp only [hfound, Attempt.ofExcept_apply] at h
        cases hsum : Checksum.ofIdentifier found.code with
        | error e' =>
            simp only [hsum] at h
            cases h
            exact .inl (Checksum.ofIdentifier_refuses hsum).routine
        | ok checksum =>
            simp only [hsum, Attempt.get_apply, Attempt.set_apply, Attempt.pure_apply] at h
            cases h

/-- A query is refused for a reason of the host's own, or for one of the querier's. -/
theorem query_refuses {call : Handle} {request : Bytes} {gasLimit : UInt64}
    (hlive : w.registry.lookup call = .ok ctx)
    (h : World.query call request gasLimit w = (.ok (.error e, gas), w')) :
    e.Routine ∨ ∃ meter, (ctx.binding.querier w.chain request).run (.new (some gasLimit)) =
      (.ok (.error e), meter) := by
  rcases hrun : (ctx.binding.querier w.chain request).run (.new (some gasLimit)) with
    ⟨answer, meter⟩
  -- The host refuses a query that has run over its limit, and passes on all else.
  rw [World.query_live hlive request gasLimit hrun] at h
  cases answer with
  | error p => cases h
  | ok result =>
      rw [Except.map] at h
      split at h
      · cases h
        exact .inl (HostError.routine_of_outOfGas rfl)
      · cases h
        exact .inr ⟨meter, rfl⟩

/-- An inquiry is refused for a reason of the host's own, or because something is missing for it,
    or for a reason of the querier that has been asked. -/
theorem answer_cases (hcap : host.capabilities = .inMemory querier) {q : Inquiry}
    (h : host.answer q w = (.ok (.error e, gas), w')) :
    e.Routine ∨ (e.code = .notFound ∧ q.Lacks w) ∨
      ∃ call request gasLimit ctx meter, q = .query call request gasLimit ∧
        w.registry.lookup call = .ok ctx ∧
        (ctx.binding.querier w.chain request).run (.new (some gasLimit)) =
          (.ok (.error e), meter) := by
  cases hlive : w.registry.lookup q.call with
  | error e' =>
      rw [answer_dead hlive] at h
      cases h
      exact .inr (.inl ⟨World.code_of_dead hlive, .inl ⟨_, hlive⟩⟩)
  | ok ctx =>
      cases q with
      | get call key =>
          refine .inl (World.withContext_refuses hlive ?_ h)
          refine .bind (charge_routine ctx _) (fun _ => .bind (onStore_routine _) (fun value => ?_))
          cases value with
          | none => exact .pure _ _
          | some v => exact .bind (charge_routine ctx _) (fun _ => .pure _ _)
      | set call key value =>
          refine .inl (World.withContext_refuses hlive ?_ h)
          exact .bind (charge_routine ctx _) (fun _ => onStore_routine _)
      | delete call key =>
          refine .inl (World.withContext_refuses hlive ?_ h)
          exact .bind (charge_routine ctx _) (fun _ => onStore_routine _)
      | scan call r order =>
          refine .inl (World.withContext_refuses hlive ?_ h)
          refine .bind (onStore_routine _) (fun _ => .bind (charge_routine ctx _) (fun _ => ?_))
          exact .bind (.get _) (fun w => .bind (.set _ _) (fun _ => .pure _ _))
      | next cursor =>
          have hlive' : w.registry.lookup cursor.call = .ok ctx := hlive
          change World.withContext cursor.call _ w = _ at h
          rw [World.withContext_live _ hlive'] at h
          rcases hmoved : host.move ctx cursor.number w with ⟨p | r, w''⟩
          · rw [hmoved] at h
            cases h
          · rw [hmoved] at h
            cases h
            rcases move_refuses (by rw [hmoved]) with hroutine | ⟨hcode, hcursor⟩
            · exact .inl hroutine
            · exact .inr (.inl ⟨hcode, .inr (.inl ⟨cursor, ctx, rfl, hlive', hcursor⟩)⟩)
      | humanize call canonical =>
          refine .inl (World.withContext_refuses hlive ?_ h)
          refine .bind (charge_routine ctx _) (fun _ => .focus ?_)
          rw [hcap]
          exact .ofExcept fun e he => (Address.human_refuses he).routine
      | canonicalize call human =>
          refine .inl (World.withContext_refuses hlive ?_ h)
          refine .bind (charge_routine ctx _) (fun _ => .focus ?_)
          rw [hcap]
          exact .ofExcept fun e he => (Address.canonical_refuses he).routine
      | resolveCall call contract store =>
          rcases resolveCall_refuses hcap hlive h with hroutine | ⟨hcode, habsent⟩
          · exact .inl hroutine
          · exact .inr (.inl ⟨hcode, .inr (.inr ⟨call, contract, store, rfl, habsent⟩)⟩)
      | transfer call receiver payer coins =>
          refine .inl (World.withContext_refuses hlive ?_ h)
          refine .focus ?_
          rw [hcap]
          exact .forM (Chain.transferCoin_refuses ctx.binding.meter receiver payer) coins
      | createContract call request gasLimit =>
          refine .inl (World.withContext_refuses hlive ?_ h)
          refine .focus ?_
          rw [hcap]
          exact Chain.createContract_refuses ctx.binding.meter request
      | query call request gasLimit =>
          -- The host hands on what the querier says.
          rcases query_refuses hlive h with hroutine | ⟨meter, hmeter⟩
          · exact .inl hroutine
          · exact .inr (.inr ⟨call, request, gasLimit, ctx, meter, rfl, hlive, hmeter⟩)

/-- An inquiry of a live call, for a cursor that exists if for one, misses nothing but the
    contract of a nested call or what the querier of the call misses. -/
theorem answer_misses (hcap : host.capabilities = .inMemory querier) {q : Inquiry}
    (hlive : w.registry.lookup q.call = .ok ctx)
    (hcursor : ∀ cursor, q = .next cursor → ∃ c, (w.frameOf ctx).cursor? cursor.number = some c)
    (h : host.answer q w = (.ok (.error e, gas), w')) (hmisses : ¬ e.Present) :
    (∃ call contract store, q = .resolveCall call contract store ∧
        w.chain.contracts.get? contract = none) ∨
      ∃ call request gasLimit meter, q = .query call request gasLimit ∧
        (ctx.binding.querier w.chain request).run (.new (some gasLimit)) =
          (.ok (.error e), meter) := by
  rcases answer_cases hcap h with hroutine |
    ⟨-, ⟨e', hdead⟩ | ⟨cursor, ctx', rfl, hlive', hnone⟩ | habsent⟩ |
    ⟨call, request, gasLimit, ctx', meter, rfl, hlive', hmeter⟩
  · -- The call is live and the cursor is there, so the host itself misses nothing.
    exact absurd hroutine.1 hmisses
  · rw [hlive] at hdead
    cases hdead
  · cases hlive.symm.trans hlive'
    rcases hcursor cursor rfl with ⟨c, hc⟩
    rw [hnone] at hc
    cases hc
  · exact .inl habsent
  · cases hlive.symm.trans hlive'
    exact .inr ⟨call, request, gasLimit, meter, rfl, hmeter⟩

/-- An inquiry that is refused with the failure of an engine is a query, of which the querier says
    so. -/
theorem answer_engine (hcap : host.capabilities = .inMemory querier) {q : Inquiry}
    (h : host.answer q w = (.ok (.error e, gas), w')) (hengine : e.OfEngine) :
    ∃ call request gasLimit ctx meter, q = .query call request gasLimit ∧
      w.registry.lookup call = .ok ctx ∧
      (ctx.binding.querier w.chain request).run (.new (some gasLimit)) =
        (.ok (.error e), meter) := by
  rcases answer_cases hcap h with hroutine | ⟨hcode, -⟩ | hquery
  · exact absurd hengine hroutine.2
  · rw [HostError.code_ofEngine hengine] at hcode
    cases hcode
  · exact hquery

end Host

end ContractHost
