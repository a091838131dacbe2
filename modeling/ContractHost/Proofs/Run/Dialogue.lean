import ContractHost.Proofs.Host.Inquiry
import ContractHost.Proofs.Run.Moments

/-!
# Operations as Dialogues

What an operation does to the world, it does through the host. It looks at the world, asks the
host something, goes on by what it is told, and in one place lets another engine run. A
`Dialogue` is that: what is asked first, and for every answer the rest of the dialogue. It has
no world in it, so it can be taken apart without one.

Held with a host, a dialogue is a step on the world, and `Script.perform_eq` says that every
operation is its dialogue held with the host of its setting. So nothing can happen between two
inquiries, and `Dialogue.within` draws the conclusion: whatever lets all inquiries and the nested
engine be done lets the operation be done.

Besides the step there is the record of it. `Dialogue.asked` lists the inquiries that are made
when the dialogue is held, with the worlds in which they are made. What the nested engine asks is
not among them; those are inquiries of the operations of another run. What can be asked at all,
whatever the answers are, can be told without a host: an operation that asks no query never asks
one.

## Main definitions

* `Dialogue`: What is asked, and what follows from the answers.
* `Dialogue.held`, `Dialogue.asked`: A dialogue as a step, and the inquiries made in it.
* `Dialogue.Asks`: What is asked in it, whatever the answers are.
* `Script.talk`: The dialogue of an operation.
* `Script.Moment.asked`: The inquiries of an operation that is about to be performed.

## Theorems

* `Script.perform_eq`: An operation is its dialogue.
* `Dialogue.within`: A dialogue moves along what all that is done in it moves along.
* `Script.talk_asks`: The inquiries of an operation serve it.
-/

namespace ContractHost

/-- What is asked of a host, and what follows from the answers. -/
inductive Dialogue (α : Type)
  | done (a : α)
  | panic (p : Panic)
  /-- Looks at the world. -/
  | look (next : World → Dialogue α)
  | ask (q : Inquiry) (next : Metered q.Answer → Dialogue α)
  /-- Lets an engine run for a call, which is released afterwards. -/
  | enter (invocation : Invocation) (call : Handle) (next : Metered Bytes → Dialogue α)

/-- An inquiry, and the world in which it is made. -/
structure Asked where
  inquiry : Inquiry
  world : World

/-- Nested calls are resolved for operations that call the contract, and queries are asked for
    operations that ask them. -/
def Inquiry.Serves : Inquiry → Op → Prop
  | resolveCall _ contract _, op =>
    ∃ delegate funds ops, op = .call contract delegate funds ops
  | query _ request gasLimit, op =>
    ∃ text, op = .query text gasLimit ∧ request = Utf8.encode text
  | _, _ => True

namespace Dialogue

variable {α β : Type}

/-- The dialogue held with a host, whose engines are `nested`. -/
def held (host : Host) (nested : Engine) : Dialogue α → World.Action α
  | done a => return a
  | panic p => Action.panic p
  | look next => do (next (← getThe World)).held host nested
  | ask q next => do (next (← host.answer q)).held host nested
  | enter invocation call next => do
    (next (← World.guarding call (nested invocation call))).held host nested

/-- The inquiries that are made in it. -/
def asked (host : Host) (nested : Engine) : Dialogue α → World → List Asked
  | done _, _ => []
  | panic _, _ => []
  | look next, w => (next w).asked host nested w
  | ask q next, w =>
    ⟨q, w⟩ :: match host.answer q w with
      | (.ok r, w') => (next r).asked host nested w'
      | (.error _, _) => []
  | enter invocation call next, w =>
    match World.guarding call (nested invocation call) w with
    | (.ok r, w') => (next r).asked host nested w'
    | (.error _, _) => []

/-- All inquiries are as `P` says, whatever they are answered. -/
def Asks (P : Inquiry → Prop) : Dialogue α → Prop
  | done _ => True
  | panic _ => True
  | look next => ∀ w, (next w).Asks P
  | ask q next => P q ∧ ∀ r, (next r).Asks P
  | enter _ _ next => ∀ r, (next r).Asks P

/-- So those that are made when the dialogue is held are. -/
theorem Asks.asked {P : Inquiry → Prop} {d : Dialogue α} (h : d.Asks P) (host : Host)
    (nested : Engine) (w : World) : ∀ a ∈ d.asked host nested w, P a.inquiry := by
  -- The induction is on the dialogue. An inquiry is as `P` says by itself, and the rest follows for
  -- its answer.
  induction d generalizing w with
  | done a => exact fun a ha => absurd ha List.not_mem_nil
  | panic p => exact fun a ha => absurd ha List.not_mem_nil
  | look next ih => exact ih w (h w) w
  | ask q next ih =>
      intro a ha
      rw [Dialogue.asked] at ha
      rcases List.mem_cons.mp ha with rfl | ha
      · exact h.1
      · split at ha
        · exact ih _ (h.2 _) _ a ha
        · exact absurd ha List.not_mem_nil
  | enter invocation call next ih =>
      intro a ha
      rw [Dialogue.asked] at ha
      split at ha
      · exact ih _ (h _) _ a ha
      · exact absurd ha List.not_mem_nil

/-- An inquiry that no other one follows is the only one. -/
theorem asked_last {host : Host} {nested : Engine} {q : Inquiry}
    {next : Metered q.Answer → Dialogue α} (hnext : ∀ r w, (next r).asked host nested w = [])
    (w : World) : (ask q next).asked host nested w = [⟨q, w⟩] := by
  rw [asked]
  rcases host.answer q w with ⟨p | r, w'⟩
  · rfl
  · dsimp only
    rw [hnext]

/-- A dialogue moves along what every inquiry and every run of the engine moves along. -/
theorem within {R : World → World → Prop} (hR : Steady R) {host : Host} {nested : Engine}
    (hanswer : ∀ q, (host.answer q).Within R)
    (hnested : ∀ invocation call, (World.guarding call (nested invocation call)).Within R)
    (d : Dialogue α) : (d.held host nested).Within R := by
  induction d with
  | done a => exact .pure hR a
  | panic p => exact hR.refl
  | look next ih => exact .bind hR (.get hR) ih
  | ask q next ih => exact .bind hR (hanswer q) ih
  | enter invocation call next ih => exact .bind hR (hnested invocation call) ih

end Dialogue

namespace Script

variable {α : Type}

/-- Asks for the records a cursor still meets, and goes on with them. -/
def drained (cursor : CursorId) :
    (steps : Nat) → (gas : Report) → (Metered (List Record) → Dialogue α) → Dialogue α
  | 0, gas, next => next (.ok [], gas)
  | steps + 1, gas, next =>
    .ask (.next cursor) fun (found, used) =>
      match found with
      | .error e => next (.error e, gas + used)
      | .ok none => next (.ok [], gas + used)
      | .ok (some e) =>
        drained cursor steps (gas + used) fun (rest, gas) => next (rest.map (e :: ·), gas)

/-- Asks for the coins of a call to be moved, and goes on. -/
def paid (call : Handle) (request : ContractCall) (next : Metered Unit → Dialogue α) :
    Dialogue α :=
  if request.delegate ∨ request.funds.isEmpty then next (.ok (), .free)
  else .ask (.transfer call request.contract request.sender request.funds) next

/-- Chooses the storage of a callee and asks for its call to be resolved, and goes on. -/
def resolving (call : Handle) (request : ContractCall) (payGas : Report)
    (next : Metered ResolvedCall → Dialogue α) : Dialogue α :=
  .look fun w =>
    match Host.storeAddressFor call request w with
    | .error e => next (.error e, payGas)
    | .ok store =>
      .ask (.resolveCall call request.contract store) fun (resolved, resolveGas) =>
        next (resolved, payGas + resolveGas)

/-- Asks for all that comes before a callee runs, and goes on with its call. -/
def opening (call : Handle) (request : ContractCall) (next : Metered ResolvedCall → Dialogue α) :
    Dialogue α :=
  paid call request fun (paid, payGas) =>
    match paid with
    | .error e => next (.error e, payGas)
    | .ok () => resolving call request payGas next

/-- The dialogue of an operation. -/
def talk (s : Setting) (used : Report) : Op → Dialogue (Metered Node)
  | .set key value =>
    .ask (.set s.call (Utf8.encode key) (Utf8.encode value)) fun (r, gas) =>
      .done (r.map fun _ => .null, gas)
  | .get key =>
    .ask (.get s.call (Utf8.encode key)) fun (r, gas) =>
      .done (r.map fun value => .optional (value.map shown), gas)
  | .delete key =>
    .ask (.delete s.call (Utf8.encode key)) fun (r, gas) => .done (r.map fun _ => .null, gas)
  | .scan start stop descending =>
    .ask (.scan s.call ⟨start.map Utf8.encode, stop.map Utf8.encode⟩
        (if descending then .descending else .ascending)) fun (r, gas) =>
      match r with
      | .error e => .done (.error e, gas)
      | .ok cursor =>
        .look fun w =>
          drained cursor (recordCount w s.call + 1) gas fun (found, gas) =>
            .done (found.map recordsNode, gas)
  | .call contract delegate funds ops =>
    .look fun w =>
      match w.registry.lookup s.call with
      | .error e => .done (.error e, .free)
      | .ok ctx =>
        let request := nestedCall s used ctx contract delegate funds ops
        opening s.call request fun (opened, gas) =>
          match opened with
          | .error e => .done (.error e, gas)
          | .ok child =>
            .enter (s.host.nestedInvocation request child.checksum) child.call fun (r, used) =>
              .done (r.bind nestedOutput, gas + used)
  | .query request gasLimit =>
    .ask (.query s.call (Utf8.encode request) gasLimit) fun (r, gas) =>
      .done ((r.map Response.parse).map responseNode, gas)
  | .canonicalize address =>
    .ask (.canonicalize s.call address) fun (r, gas) =>
      .done (r.map fun b => .text (Hex.encode b), gas)
  | .fail message => .done (.error (.engine message), .free)
  | .panic message => .panic ⟨message⟩

/-- The inquiries that the operation makes itself. -/
def Moment.asked (m : Moment) : List Asked :=
  (talk m.setting m.used m.op).asked m.setting.host m.setting.nested m.world

variable {host : Host} {nested : Engine}

theorem held_drained (cursor : CursorId) (steps : Nat) (gas : Report)
    (next : Metered (List Record) → Dialogue α) :
    (drained cursor steps gas next).held host nested =
      drain host cursor steps gas >>= fun r => (next r).held host nested := by
  induction steps generalizing gas next with
  | zero => rfl
  | succ steps ih =>
      -- The first step is the same on both sides, and decides whether there is a rest.
      rw [drain, bind_assoc]
      change (host.next cursor >>= fun r => _) = _
      congr 1
      funext r
      rcases r with ⟨e | _ | e, used⟩
      · rfl
      · rfl
      · dsimp only
        rw [ih, bind_assoc]
        rfl

theorem held_paid (call : Handle) (request : ContractCall) (next : Metered Unit → Dialogue α) :
    (paid call request next).held host nested =
      host.payFunds call request >>= fun r => (next r).held host nested := by
  unfold paid Host.payFunds
  split
  · rfl
  · rfl

/-- To ask for all that comes before a callee runs is to open its call. -/
theorem held_opening (call : Handle) (request : ContractCall)
    (next : Metered ResolvedCall → Dialogue α) :
    (opening call request next).held host nested =
      host.openCall call request >>= fun r => (next r).held host nested := by
  unfold opening Host.openCall
  rw [held_paid, bind_assoc]
  congr 1
  funext paid
  rcases paid with ⟨e | _, payGas⟩
  · rfl
  · dsimp only
    rw [bind_assoc]
    -- The storage of the callee is chosen in the world that the payment has left.
    change (getThe World >>= fun w => _) = _
    congr 1
    funext w
    dsimp only
    cases Host.storeAddressFor call request w with
    | error e => rfl
    | ok store =>
        dsimp only
        rw [bind_assoc]
        rfl

/-- An operation is its dialogue, held with the host of its setting. -/
theorem perform_eq (s : Setting) (used : Report) (op : Op) :
    perform s used op = (talk s used op).held s.host s.nested := by
  -- Most operations ask one thing and are done with the answer.
  cases op with
  | set key value => rfl
  | get key => rfl
  | delete key => rfl
  | scan start stop descending =>
      rw [perform, talk, Dialogue.held]
      congr 1
      funext r
      rcases r with ⟨e | cursor, gas⟩
      · rfl
      · -- How many records there are is read in the world that the scan has left.
        dsimp only
        rw [Dialogue.held]
        congr 1
        funext w
        rw [held_drained]
        rfl
  | call contract delegate funds ops =>
      rw [perform, talk, Dialogue.held]
      congr 1
      funext w
      cases w.registry.lookup s.call with
      | error e => rfl
      | ok ctx =>
          dsimp only
          rw [held_opening, Host.callContract, bind_assoc]
          congr 1
          funext r
          rcases r with ⟨e | child, gas⟩
          · rfl
          · dsimp only
            rw [bind_assoc]
            rfl
  | query request gasLimit =>
      -- The response is decoded behind the query, and that asks nothing.
      rw [perform, World.queryDecoded]
      simp only [bind_assoc]
      rfl
  | canonicalize address => rfl
  | fail message => rfl
  | panic message => rfl

/-! ## What can be asked -/

section

variable {P : Inquiry → Prop}

theorem drained_asks {cursor : CursorId} (hcursor : P (.next cursor))
    {next : Metered (List Record) → Dialogue α} (hnext : ∀ r, (next r).Asks P) (steps : Nat)
    (gas : Report) : (drained cursor steps gas next).Asks P := by
  induction steps generalizing gas next with
  | zero => exact hnext _
  | succ steps ih =>
      refine ⟨hcursor, fun r => ?_⟩
      rcases r with ⟨e | _ | e, used⟩
      · exact hnext _
      · exact hnext _
      · exact ih (fun _ => hnext _) _

/-- A call is resolved for its contract, whatever storage has been chosen. -/
theorem resolving_asks {call : Handle} {request : ContractCall}
    (hresolve : ∀ store, P (.resolveCall call request.contract store))
    {next : Metered ResolvedCall → Dialogue α} (hnext : ∀ r, (next r).Asks P) (payGas : Report) :
    (resolving call request payGas next).Asks P := by
  intro w
  dsimp only
  split
  · exact hnext _
  · exact ⟨hresolve _, fun _ => hnext _⟩

theorem opening_asks {call : Handle} {request : ContractCall}
    (hpay : P (.transfer call request.contract request.sender request.funds))
    (hresolve : ∀ store, P (.resolveCall call request.contract store))
    {next : Metered ResolvedCall → Dialogue α} (hnext : ∀ r, (next r).Asks P) :
    (opening call request next).Asks P := by
  unfold opening paid
  split
  · exact resolving_asks hresolve hnext _
  · refine ⟨hpay, fun r => ?_⟩
    rcases r with ⟨e | _, payGas⟩
    · exact hnext _
    · exact resolving_asks hresolve hnext _

end

/-- Whatever an operation is answered, its inquiries serve it. -/
theorem talk_asks (s : Setting) (used : Report) (op : Op) :
    (talk s used op).Asks fun q => q.Serves op := by
  cases op with
  | set key value => exact ⟨trivial, fun _ => trivial⟩
  | get key => exact ⟨trivial, fun _ => trivial⟩
  | delete key => exact ⟨trivial, fun _ => trivial⟩
  | scan start stop descending =>
      refine ⟨trivial, fun r => ?_⟩
      rcases r with ⟨e | cursor, gas⟩
      · trivial
      · intro w
        refine drained_asks ?_ (fun _ => ?_) _ gas
        · trivial
        · trivial
  | call contract delegate funds ops =>
      intro w
      dsimp only
      split
      · trivial
      · refine opening_asks trivial (fun _ => ⟨delegate, funds, ops, rfl⟩) (fun r => ?_)
        rcases r with ⟨e | child, gas⟩
        · trivial
        · exact fun _ => trivial
  | query request gasLimit => exact ⟨⟨request, rfl, rfl⟩, fun _ => trivial⟩
  | canonicalize address => exact ⟨trivial, fun _ => trivial⟩
  | fail message => trivial
  | panic message => trivial

theorem Moment.asked_serves (m : Moment) : ∀ a ∈ m.asked, a.inquiry.Serves m.op :=
  (talk_asks m.setting m.used m.op).asked m.setting.host m.setting.nested m.world

/-- A query is asked by an operation that asks it, in the world in which the operation begins. -/
theorem Moment.asked_query {m : Moment} {call : Handle} {request : Bytes} {gasLimit : UInt64}
    {a : Asked} (ha : a ∈ m.asked) (hq : a.inquiry = .query call request gasLimit) :
    ∃ text, m.op = .query text gasLimit ∧ request = Utf8.encode text ∧
      call = m.setting.call ∧ a.world = m.world := by
  -- Only one operation asks queries, and the query is the first thing that it asks.
  have hserves := m.asked_serves a ha
  rw [hq] at hserves
  rcases hserves with ⟨text, hop, hrequest⟩
  unfold Moment.asked at ha
  rw [hop, talk, Dialogue.asked_last (fun _ _ => rfl), List.mem_singleton] at ha
  rw [ha] at hq ⊢
  cases hq
  exact ⟨text, hop, rfl, rfl, rfl⟩

end Script

end ContractHost
