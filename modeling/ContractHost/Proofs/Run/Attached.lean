import ContractHost.Proofs.Document.Wire
import ContractHost.Proofs.Run.Dialogue
import ContractHost.Proofs.Run.Funds

/-!
# What a Callee Is Told

A callee learns from its message info who has called it and with what coins. Whether the coins of
a call are moved and what is written into the info are two different matters to the host. Coins are
moved for plain calls only, and the info has the coins that the caller has listed, whatever kind of
call it is.

What has been moved is read off the dialogue that a nested call is, not off the call itself: it is
the coins of all transfers from the sender to the callee that the host has been asked for and has
not refused. For a plain call these are the coins that the callee is told. A delegate call moves
none, so its callee is told of coins that nobody has paid, unless there are none listed.

## Main definitions

* `Script.calling`: The dialogue of a nested call.
* `Asked.coins`, `Host.coinsMoved`: The coins that are moved by an inquiry and by a call.

## Theorems

* `Script.held_calling`: A nested call is its dialogue.
* `Host.started_cases`, `Host.callContract_started`: What comes before a callee runs, and how the
  call goes on.
* `Host.coinsMoved_of_paid`: What a call moves.
* `Host.callee_is_told_funds`: What the callee is told, and when that is what has been moved.
-/

namespace ContractHost

/-! ## Nested calls as dialogues -/

namespace Script

variable {host : Host}

/-- Lets a callee run, if there is one. -/
def entering (host : Host) (request : ContractCall) :
    Metered ResolvedCall → Dialogue (Metered Bytes)
  | (.error e, gas) => .done (.error e, gas)
  | (.ok child, gas) =>
    .enter (host.nestedInvocation request child.checksum) child.call fun (r, used) =>
      .done (r, gas + used)

/-- The dialogue of a nested call. -/
def calling (host : Host) (call : Handle) (request : ContractCall) : Dialogue (Metered Bytes) :=
  opening call request (entering host request)

/-- To hold the dialogue of a nested call is to make the call. -/
theorem held_calling (engine : Engine) (call : Handle) (request : ContractCall) :
    (calling host call request).held host engine = host.callContract engine call request := by
  rw [calling, held_opening, Host.callContract]
  congr 1
  funext opened
  rcases opened with ⟨e | child, gas⟩
  · rfl
  · rfl

end Script

/-- Behind an inquiry that is answered, the dialogue goes on. -/
theorem Dialogue.asked_ask {α : Type} {host : Host} {nested : Engine} {q : Inquiry}
    {next : Metered q.Answer → Dialogue α} {r : Metered q.Answer} {w w' : World}
    (h : host.answer q w = (.ok r, w')) :
    (ask q next).asked host nested w = ⟨q, w⟩ :: (next r).asked host nested w' := by
  rw [asked, h]

/-- The coins that are moved from one address to another if the inquiry is made, which are none if
    it is refused. -/
def Asked.coins (host : Host) (payer receiver : String) (a : Asked) : List Coin :=
  match a.inquiry with
  | .transfer call receiver' payer' coins =>
    match (host.transfer call receiver' payer' coins a.world).1 with
    | .ok (.ok (), _) => if payer' = payer ∧ receiver' = receiver then coins else []
    | _ => []
  | _ => []

namespace ContractCall

/-- The coins that the kind of a call lets it move. -/
def due (request : ContractCall) : List Coin := if request.delegate then [] else request.funds

theorem due_eq_nil {request : ContractCall}
    (h : request.delegate = true ∨ request.funds.isEmpty = true) : request.due = [] := by
  unfold due
  rcases h with hdelegate | hfunds
  · rw [if_pos hdelegate]
  · rw [List.isEmpty_iff.mp hfunds, ite_self]

theorem due_of_plain {request : ContractCall} (h : ¬ request.delegate = true) :
    request.due = request.funds := if_neg h

/-- A call moves the coins that it lists unless it is a delegate call that lists some. -/
theorem due_eq_funds_iff (request : ContractCall) :
    request.due = request.funds ↔ request.delegate = false ∨ request.funds = [] := by
  -- A delegate call moves nothing, so it moves what it lists if that is nothing.
  cases hdelegate : request.delegate with
  | false =>
      rw [due_of_plain (by rw [hdelegate]; exact Bool.false_ne_true)]
      exact iff_of_true rfl (.inl rfl)
  | true =>
      rw [due_eq_nil (.inl hdelegate)]
      exact ⟨fun h => .inr h.symm, fun h => (h.resolve_left Bool.noConfusion).symm⟩

end ContractCall

namespace Host

variable {host : Host} {call : Handle} {request : ContractCall} {w : World}

/-- The coins that a nested call moves from its sender to its callee. What the callee does with
    them is its own affair and does not count. -/
def coinsMoved (host : Host) (engine : Engine) (call : Handle) (request : ContractCall)
    (w : World) : List Coin :=
  ((Script.calling host call request).asked host engine w).flatMap
    (Asked.coins host request.sender request.contract)

/-! ## What comes before a callee runs -/

/-- A callee that runs has had its coins paid, if there are any to be paid, and its call resolved
    in the world that the payment has left. -/
theorem started_cases {start : Script.Start} (h : host.started? call request w = some start) :
    ∃ payGas w₁ store child gas,
      host.payFunds call request w = (.ok (.ok (), payGas), w₁) ∧
      host.resolveCall call request.contract store w₁ = (.ok (.ok child, gas), start.world) ∧
      host.openCall call request w = (.ok (.ok child, payGas + gas), start.world) ∧
      start.invocation = host.nestedInvocation request child.checksum ∧
      start.call = child.call := by
  unfold started? at h
  rcases hopen : host.openCall call request w with ⟨p | ⟨e | child, used⟩, w'⟩
  · rw [hopen] at h
    cases h
  · rw [hopen] at h
    cases h
  · rw [hopen] at h
    cases h
    rcases openCall_cases hopen with
      ⟨paid, -, ⟨p, -, hx⟩ | ⟨_, e, _, -, hx⟩⟩ |
        ⟨w₁, payGas, store, resolved, hpay, -, hresolve, hx⟩
    · cases hx
    · cases hx
    · rcases resolved with p | ⟨r, gas⟩
      · cases hx
      · cases hx
        exact ⟨payGas, w₁, store, child, gas, hpay, hresolve, rfl, rfl, rfl⟩

/-- A nested call hands its start to the engine and goes on with what the engine makes of it. -/
theorem callContract_started {start : Script.Start}
    (h : host.started? call request w = some start) : ∃ gas, ∀ engine,
      host.callContract engine call request w =
        match engine start.invocation start.call start.world with
        | (.error p, w') => (.error p, w'.release start.call)
        | (.ok (r, used), w') => (.ok (r, gas + used), w'.release start.call) := by
  rcases started_cases h with ⟨payGas, w₁, store, child, gas, -, -, hopen, hinvocation, hcall⟩
  -- What is used before the engine runs does not depend on the engine.
  refine ⟨payGas + gas, fun engine => ?_⟩
  rcases hrun : engine (host.nestedInvocation request child.checksum) child.call start.world with
    ⟨p | ⟨r, used⟩, w'⟩
  · simp only [callContract_apply, hopen, hinvocation, hcall, hrun]
  · simp only [callContract_apply, hopen, hinvocation, hcall, hrun]

/-! ## What is moved -/

/-- A dialogue moves nothing if none of its inquiries can. -/
theorem moves_nothing {α : Type} {d : Dialogue α} {payer receiver : String}
    (h : d.Asks fun q => ∀ w, Asked.coins host payer receiver ⟨q, w⟩ = []) (engine : Engine)
    (w : World) : (d.asked host engine w).flatMap (Asked.coins host payer receiver) = [] :=
  List.flatMap_eq_nil_iff.mpr fun a ha => h.asked host engine w a ha a.world

/-- Behind the payment nothing is moved: what is left is to resolve the callee and to let it
    run. -/
theorem resolving_moves_nothing (payGas : Report) (payer receiver : String) :
    (Script.resolving call request payGas (Script.entering host request)).Asks
      fun q => ∀ w, Asked.coins host payer receiver ⟨q, w⟩ = [] := by
  refine Script.resolving_asks (fun store w => rfl) (fun opened => ?_) payGas
  rcases opened with ⟨e | child, gas⟩
  · trivial
  · exact fun _ => trivial

/-- A call that gets behind its payment has moved the coins that it was to move. -/
theorem coinsMoved_of_paid {payGas : Report} {w₁ : World}
    (h : host.payFunds call request w = (.ok (.ok (), payGas), w₁)) (engine : Engine) :
    host.coinsMoved engine call request w = request.due := by
  unfold payFunds at h
  unfold coinsMoved Script.calling Script.opening Script.paid
  by_cases hfree : request.delegate = true ∨ request.funds.isEmpty = true
  · -- Nothing is asked for, and nothing is due.
    rw [if_pos hfree, moves_nothing (resolving_moves_nothing _ _ _), ContractCall.due_eq_nil hfree]
  · rw [if_neg hfree] at h ⊢
    have hanswer : host.answer (.transfer call request.contract request.sender request.funds) w =
        (.ok (.ok (), payGas), w₁) := h
    -- The first inquiry moves the coins, and it is the only one that can move any.
    have hpaid : Asked.coins host request.sender request.contract
        ⟨.transfer call request.contract request.sender request.funds, w⟩ = request.funds := by
      unfold Asked.coins
      dsimp only
      rw [h]
      exact if_pos ⟨rfl, rfl⟩
    rw [Dialogue.asked_ask hanswer, List.flatMap_cons, hpaid]
    dsimp only
    rw [moves_nothing (resolving_moves_nothing _ _ _), List.append_nil,
      ContractCall.due_of_plain fun hdelegate => hfree (.inl hdelegate)]

/-- The balances that a callee in memory finds are those after the payment of what was to be
    moved. -/
theorem started_paid {querier : Querier} (hcap : host.capabilities = .inMemory querier)
    {start : Script.Start} (h : host.started? call request w = some start) :
    w.chain.ledger.Paid request.sender request.contract request.due start.world.chain.ledger := by
  rcases started_cases h with ⟨payGas, w₁, store, child, gas, hpay, hresolve, -⟩
  -- Resolving the callee only looks into the table.
  have hkept : start.world.chain = w₁.chain := by
    rcases resolveCall_cases hresolve with
      ⟨-, hnone⟩ | ⟨ctx, found, c, checksum, used, -, -, hfound, -, -, hworld⟩
    · exact absurd rfl (hnone child gas)
    · rw [hcap, Capabilities.inMemory_resolveCall_apply] at hfound
      rw [hworld]
      exact (congrArg Prod.snd hfound).symm
  rw [hkept]
  -- The payment is one of the capability, or there is none.
  unfold payFunds at hpay
  by_cases hfree : request.delegate = true ∨ request.funds.isEmpty = true
  · rw [if_pos hfree] at hpay
    cases hpay
    rw [ContractCall.due_eq_nil hfree]
    exact .refl _ _ _
  · rw [if_neg hfree] at hpay
    rcases transfer_ok hpay with ⟨ctx, c, -, hmoved, rfl⟩
    rw [hcap] at hmoved
    rw [ContractCall.due_of_plain fun hdelegate => hfree (.inl hdelegate)]
    exact Chain.transfer_paid hmoved

/-- A callee that runs is told who has called it and the coins that the call lists. The coins that
    the call has moved are these if it is a plain call, and none if it is a delegate call. So what
    the callee is told has been moved unless a delegate call lists coins. -/
theorem callee_is_told_funds {start : Script.Start}
    (h : host.started? call request w = some start) :
    (∃ gas, ∀ engine, host.callContract engine call request w =
      match engine start.invocation start.call start.world with
      | (.error p, w') => (.error p, w'.release start.call)
      | (.ok (r, used), w') => (.ok (r, gas + used), w'.release start.call)) ∧
    (∃ info, start.invocation.info = some info ∧
      MessageInfo.reader.ofJson? info = some ⟨request.sender, request.funds⟩) ∧
    (∀ engine, host.coinsMoved engine call request w =
      if request.delegate then [] else request.funds) ∧
    (∀ engine, host.coinsMoved engine call request w = request.funds ↔
      request.delegate = false ∨ request.funds = []) ∧
    ∀ querier, host.capabilities = .inMemory querier → ∀ engine,
      w.chain.ledger.Paid request.sender request.contract
        (host.coinsMoved engine call request w) start.world.chain.ledger := by
  rcases started_cases h with ⟨payGas, w₁, store, child, gas, hpay, -, -, hinvocation, -⟩
  refine ⟨callContract_started h, ⟨_, congrArg Invocation.info hinvocation, ?_⟩,
    coinsMoved_of_paid hpay, fun engine => ?_, fun querier hcap engine => ?_⟩
  · exact (MessageInfo.readsBack _).ofJson?_write (by decide)
  · rw [coinsMoved_of_paid hpay, ContractCall.due_eq_funds_iff]
  · rw [coinsMoved_of_paid hpay]
    exact started_paid hcap h

end Host

/-- A world with two contracts, the first of which has a call that is live, and a hundred of a
    denomination. -/
def World.provided : World :=
  { World.pair with
    chain := { World.pair.chain with ledger := Ledger.put .empty "a" "ucc" (.clamp 100) } }

/-- A call of the second contract by the first one, with forty of the denomination. -/
def ContractCall.attached (delegate : Bool) : ContractCall :=
  ⟨"b", delegate, "a", [⟨"ucc", "40"⟩], [], [], 1000⟩

/-- The forty of a plain call have been moved. -/
theorem Host.callee_is_told_funds_of_plain : ∃ start info,
    Host.small.started? ⟨1⟩ (.attached false) .provided = some start ∧
    start.invocation.info = some info ∧
    MessageInfo.reader.ofJson? info = some ⟨"a", [⟨"ucc", "40"⟩]⟩ ∧
    World.provided.chain.ledger.Paid "a" "b" [⟨"ucc", "40"⟩] start.world.chain.ledger := by
  have hstarts : (Host.small.started? ⟨1⟩ (.attached false) .provided).isSome = true := by
    decide +kernel
  have hcap : Host.small.capabilities = .inMemory (.answering 1) := rfl
  rcases Option.isSome_iff_exists.mp hstarts with ⟨start, hstart⟩
  rcases Host.callee_is_told_funds hstart with ⟨-, ⟨info, hinfo, htold⟩, hmoved, -, hpaid⟩
  have hledger := hpaid _ hcap (Script.engine .small)
  rw [hmoved] at hledger
  exact ⟨start, info, hstart, hinfo, htold, hledger⟩

/-- The forty of a delegate call have not, although the callee is told of them. -/
theorem Host.delegate_is_told_unmoved :
    ¬ ∀ (host : Host) (querier : Querier) (engine : Engine) (call : Handle)
      (request : ContractCall) (w : World) (start : Script.Start) (info : Bytes)
      (told : MessageInfo),
      host.capabilities = .inMemory querier → host.started? call request w = some start →
      start.invocation.info = some info → MessageInfo.reader.ofJson? info = some told →
      told.sender = request.sender ∧ told.funds = host.coinsMoved engine call request w := by
  intro h
  have hcap : Host.small.capabilities = .inMemory (.answering 1) := rfl
  have hstarts : (Host.small.started? ⟨1⟩ (.attached true) .provided).isSome = true := by
    decide +kernel
  rcases Option.isSome_iff_exists.mp hstarts with ⟨start, hstart⟩
  rcases Host.started_cases hstart with ⟨_, _, _, child, _, hpay, -, -, hinvocation, -⟩
  have hinfo := congrArg Invocation.info hinvocation
  have htold := (MessageInfo.readsBack ⟨"a", [⟨"ucc", "40"⟩]⟩).ofJson?_write (by decide)
  have hfunds := (h _ _ (Script.engine .small) _ _ _ _ _ _ hcap hstart hinfo htold).2
  rw [Host.coinsMoved_of_paid hpay, ContractCall.due_eq_nil (.inl rfl)] at hfunds
  exact List.cons_ne_nil _ _ hfunds

end ContractHost
