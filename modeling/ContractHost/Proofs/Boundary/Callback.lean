import ContractHost.Boundary.Callbacks
import ContractHost.Proofs.Host.Inquiry
import ContractHost.Proofs.Small
import ContractHost.Proofs.Text.Utf8

/-!
# Callbacks Are Inquiries

A native engine makes its inquiries in words and views, and gets codes and buffers back. This
file says that nothing is lost or mixed up on either way. A callback whose arguments are in
order asks exactly one inquiry, on the world as it is, and leaves the world that the host
leaves. What the host hands back can be told from the reply: whether the inquiry was refused
and how, the gas, and the value itself, so that no value, an empty value and an end of a walk
are three different replies.

`Callback.Asks` is the way in: it names the inquiry behind a callback and how its answer is
written. It has one constructor a callback, and its premises are all that has to be in order.
`Reply.Reports` is the way back.

One lemma carries both. By `Callback.run_apply` a callback is the host's answer with a reply
made of it, and this includes a panic of the host, which becomes a reply like any other.

## Main definitions

* `Callback`, `Callback.run`: The callbacks, with their arguments as they come.
* `Callback.WellFormed`, `Places.Hold`: Arguments in order, and places that are there.
* `Callback.Asks`: The inquiry behind a callback, and how its answer is written.
* `Reply.Reports`: A reply that reports what the host has handed back.

## Theorems

* `Callback.WellFormed.asks`: A callback with its arguments in order asks something.
* `Callback.Asks.write_injective`: Different answers are written differently.
* `Callback.run_apply`: A callback is the host's answer with a reply made of it.
* `Callback.run_reports`: The reply reports the answer.
-/

namespace ContractHost

/-! ## The way in -/

namespace View

/-- The view lends a text. -/
def Spells (v : View) (s : String) : Prop := ∃ b, v.read = some b ∧ Utf8.decode b = .ok s

/-- The view lends a value in JSON. -/
def Documents {α : Type} (v : View) (reader : Reader α) (a : α) : Prop :=
  ∃ b, v.read = some b ∧ (Json.read? b).bind (reader nestingLimit) = some a

end View

/-- A callback of a native engine, with its arguments as they come. -/
inductive Callback
  | get (call : UInt64) (key : View)
  | set (call : UInt64) (key value : View)
  | delete (call : UInt64) (key : View)
  | scan (call : UInt64) (start stop : View) (order : Int)
  | next (call number : UInt64)
  | humanize (call : UInt64) (input : View)
  | canonicalize (call : UInt64) (input : View)
  | resolveCall (call : UInt64) (contract store : View)
  | transfer (call : UInt64) (contract payer coins : View)
  | createContract (call gasLimit : UInt64) (request : View)
  | query (call gasLimit : UInt64) (request : View)

namespace Callback

/-- What is written on success. -/
@[reducible] def Output : Callback → Type
  | get _ _ => Buffer
  | set _ _ _ => Unit
  | delete _ _ => Unit
  | scan _ _ _ _ => CursorId
  | next _ _ => Buffer × Buffer
  | humanize _ _ => Buffer
  | canonicalize _ _ => Buffer
  | resolveCall _ _ _ => Buffer × UInt64
  | transfer _ _ _ _ => Unit
  | createContract _ _ _ => Buffer
  | query _ _ _ => Buffer

/-- The name under which a panic is reported. -/
def name : Callback → String
  | get _ _ => "db_get"
  | set _ _ _ => "db_set"
  | delete _ _ => "db_delete"
  | scan _ _ _ _ => "db_scan"
  | next _ _ => "iterator_next"
  | humanize _ _ => "humanize_address"
  | canonicalize _ _ => "canonicalize_address"
  | resolveCall _ _ _ => "resolve_call"
  | transfer _ _ _ _ => "transfer_coins"
  | createContract _ _ _ => "create_contract"
  | query _ _ _ => "query_external"

/-- The callback as the table has it. -/
def run (state : Option Host) (places : Places) : (c : Callback) → Boundary.Step c.Output
  | get call key => Boundary.get state places call key
  | set call key value => Boundary.set state places call key value
  | delete call key => Boundary.delete state places call key
  | scan call start stop order => Boundary.scan state places call start stop order
  | next call number => Boundary.next state places call number
  | humanize call input => Boundary.humanize state places call input
  | canonicalize call input => Boundary.canonicalize state places call input
  | resolveCall call contract store => Boundary.resolveCall state places call contract store
  | transfer call contract payer coins => Boundary.transfer state places call contract payer coins
  | createContract call gasLimit request =>
    Boundary.createContract state places call gasLimit request
  | query call gasLimit request => Boundary.query state places call gasLimit request

/-- The arguments are in order: a view that has to be there is not absent, a text is one, a
    document decodes, and a number that stands for an order is that of an order. -/
def WellFormed : Callback → Prop
  | get _ key => key.isNil = false
  | set _ key value => key.isNil = false ∧ value.isNil = false
  | delete _ key => key.isNil = false
  | scan _ _ _ order => order = 1 ∨ order = 2
  | next _ _ => True
  | humanize _ input => input.isNil = false
  | canonicalize _ input => ∃ human, input.Spells human
  | resolveCall _ contract store =>
    (∃ address, contract.Spells address) ∧ ∃ address, store.Spells address
  | transfer _ contract payer coins =>
    (∃ address, contract.Spells address) ∧ (∃ address, payer.Spells address) ∧
      ∃ moved, coins.Documents Coin.listReader moved
  | createContract _ _ request => ∃ create, request.Documents CreateRequest.reader create
  | query _ _ request => request.isNil = false

/-- The places for its outputs are there. -/
def Placed (places : Places) : Callback → Prop
  | set _ _ _ => True
  | delete _ _ => True
  | transfer _ _ _ _ => True
  | next _ _ => places.first = true ∧ places.second = true
  | resolveCall _ _ _ => places.first = true ∧ places.second = true
  | _ => places.first = true

/-- The inquiry behind a callback, and how its answer is written. -/
inductive Asks : (c : Callback) → (q : Inquiry) → (q.Answer → c.Output) → Prop
  | get {call key b} : key.read = some b → Asks (get call key) (.get ⟨call⟩ b) Buffer.mk
  | set {call key value b b'} : key.read = some b → value.read = some b' →
      Asks (set call key value) (.set ⟨call⟩ b b') id
  | delete {call key b} : key.read = some b → Asks (delete call key) (.delete ⟨call⟩ b) id
  | scan {call start stop number} {order : Order} : number = order.toInt →
      Asks (scan call start stop number) (.scan ⟨call⟩ ⟨start.read, stop.read⟩ order) id
  | next {call number} : Asks (next call number) (.next ⟨⟨call⟩, number⟩) Boundary.recordBuffers
  | humanize {call input b} : input.read = some b →
      Asks (humanize call input) (.humanize ⟨call⟩ b) fun s => .some (Utf8.encode s)
  | canonicalize {call input s} : input.Spells s →
      Asks (canonicalize call input) (.canonicalize ⟨call⟩ s) .some
  | resolveCall {call contract store s s'} : contract.Spells s → store.Spells s' →
      Asks (resolveCall call contract store) (.resolveCall ⟨call⟩ s s')
        fun r => (.some r.checksum.bytes, r.call.id)
  | transfer {call contract payer coins s s' moved} : contract.Spells s → payer.Spells s' →
      coins.Documents Coin.listReader moved →
      Asks (transfer call contract payer coins) (.transfer ⟨call⟩ s s' moved) id
  | createContract {call gasLimit request create} :
      request.Documents CreateRequest.reader create →
      Asks (createContract call gasLimit request) (.createContract ⟨call⟩ create gasLimit)
        fun s => .some (Utf8.encode s)
  | query {call gasLimit request b} : request.read = some b →
      Asks (query call gasLimit request) (.query ⟨call⟩ b gasLimit) .some

end Callback

/-- A view that is not absent can be read, also if its pointer is null. -/
theorem View.read_of_not_nil {v : View} (h : v.isNil = false) : ∃ b, v.read = some b := by
  unfold read
  rw [h, if_neg Bool.false_ne_true]
  cases v.pointer with
  | none => exact ⟨_, rfl⟩
  | some b => exact ⟨_, rfl⟩

namespace Callback

/-- A callback with its arguments in order asks something. -/
theorem WellFormed.asks {c : Callback} (h : c.WellFormed) : ∃ q write, c.Asks q write := by
  -- What is in order is what the constructor of the callback asks for.
  cases c with
  | get call key =>
      rcases View.read_of_not_nil h with ⟨b, hb⟩
      exact ⟨_, _, .get hb⟩
  | set call key value =>
      rcases View.read_of_not_nil h.1 with ⟨b, hb⟩
      rcases View.read_of_not_nil h.2 with ⟨b', hb'⟩
      exact ⟨_, _, .set hb hb'⟩
  | delete call key =>
      rcases View.read_of_not_nil h with ⟨b, hb⟩
      exact ⟨_, _, .delete hb⟩
  | scan call start stop number =>
      rcases h with hnumber | hnumber
      · exact ⟨.scan ⟨call⟩ ⟨start.read, stop.read⟩ .ascending, id, .scan hnumber⟩
      · exact ⟨.scan ⟨call⟩ ⟨start.read, stop.read⟩ .descending, id, .scan hnumber⟩
  | next call number => exact ⟨_, _, .next⟩
  | humanize call input =>
      rcases View.read_of_not_nil h with ⟨b, hb⟩
      exact ⟨_, _, .humanize hb⟩
  | canonicalize call input =>
      rcases h with ⟨s, hs⟩
      exact ⟨_, _, .canonicalize hs⟩
  | resolveCall call contract store =>
      rcases h with ⟨⟨s, hs⟩, s', hs'⟩
      exact ⟨_, _, .resolveCall hs hs'⟩
  | transfer call contract payer coins =>
      rcases h with ⟨⟨s, hs⟩, ⟨s', hs'⟩, moved, hmoved⟩
      exact ⟨_, _, .transfer hs hs' hmoved⟩
  | createContract call gasLimit request =>
      rcases h with ⟨create, hcreate⟩
      exact ⟨_, _, .createContract hcreate⟩
  | query call gasLimit request =>
      rcases View.read_of_not_nil h with ⟨b, hb⟩
      exact ⟨_, _, .query hb⟩

/-- Different answers are written differently. -/
theorem Asks.write_injective {c : Callback} {q : Inquiry} {write : q.Answer → c.Output}
    (h : c.Asks q write) : Function.Injective write := by
  -- Texts and bytes are written to a buffer that is there, so only the bytes have to be told apart.
  have htext : Function.Injective fun s => Buffer.some (Utf8.encode s) := by
    intro s t heq
    exact Utf8.encode_injective (Option.some.inj (Buffer.mk.inj heq))
  have hbytes : Function.Injective Buffer.some :=
    fun b b' heq => Option.some.inj (Buffer.mk.inj heq)
  cases h with
  | get hkey => exact fun found found' heq => Buffer.mk.inj heq
  | set hkey hvalue => exact Function.injective_id
  | delete hkey => exact Function.injective_id
  | scan horder => exact Function.injective_id
  | next =>
      -- The end of a walk is two absent buffers, and a record is two that are there.
      rintro (_ | ⟨key, value⟩) (_ | ⟨key', value'⟩) heq
      · rfl
      · cases heq
      · cases heq
      · cases heq
        rfl
  | humanize hinput => exact htext
  | canonicalize hinput => exact hbytes
  | resolveCall hcontract hstore =>
      -- A checksum is its bytes, and a handle its number.
      rintro ⟨⟨b, hb⟩, ⟨id⟩⟩ ⟨⟨b', hb'⟩, ⟨id'⟩⟩ heq
      cases heq
      rfl
  | transfer hcontract hpayer hcoins => exact Function.injective_id
  | createContract hrequest => exact htext
  | query hrequest => exact hbytes

end Callback

/-! ## The way back -/

namespace Boundary

variable {α β : Type}

/-- A callback ends with a reply, also if its request has panicked. -/
theorem serve_apply (name : String) (places : Places) (request : World.Attempt (Metered α))
    (w : World) :
    serve name places request w = (reply places (settle name (request w).1), (request w).2) := rfl

/-- Whatever the host hands back is handed on, errors too, so that the gas is not lost with them. -/
theorem ask_apply (request : World.Action (Metered α)) (w : World) :
    ask request w = match request w with
      | (.ok r, w') => (.ok (.ok r), w')
      | (.error p, w') => (.error p, w') := by
  change (request >>= fun r => pure (.ok r) : World.Action (Except HostError (Metered α))) w = _
  rw [Action.bind_apply]
  rcases request w with ⟨p | r, w'⟩
  · rfl
  · rfl

theorem mapOk_id (r : Metered α) : mapOk id r = r := by
  rcases r with ⟨e | a, gas⟩
  · rfl
  · rfl

theorem text_of_spells {v : View} {s : String} (h : v.Spells s) (what : String) :
    text v what = pure s := by
  rcases h with ⟨b, hb, hs⟩
  -- The view is read, and its bytes are those of the text.
  unfold text bytes
  simp only [hb, pure_bind, hs]

theorem document_of_documents {v : View} {reader : Reader α} {a : α} (h : v.Documents reader a)
    (what complaint : String) : document reader v what complaint = pure a := by
  rcases h with ⟨b, hb, ha⟩
  unfold document bytes
  simp only [hb, pure_bind, ha]

theorem bytes_of_read {v : View} {b : Bytes} (h : v.read = some b) (what : String) :
    bytes v what = pure b := by
  unfold bytes
  rw [h]

/-- The last step of a callback, once its arguments have been found in order. -/
def relay (name : String) (places : Places) (write : α → β)
    (request : World.Action (Metered α)) : Step β :=
  serve name places do
    return mapOk write (← ask request)

theorem relay_apply (name : String) (places : Places) (write : α → β)
    (request : World.Action (Metered α)) (w : World) :
    relay name places write request w =
      (reply places (settle name ((request w).1.map fun r => .ok (mapOk write r))),
        (request w).2) := by
  unfold relay
  rw [serve_apply, Attempt.bind_apply, ask_apply]
  rcases request w with ⟨p | r, w'⟩
  · rfl
  · rfl

theorem relay_id (name : String) (places : Places) (request : World.Action (Metered α)) :
    relay name places id request = serve name places (ask request) := by
  unfold relay
  simp only [mapOk_id, bind_pure]

end Boundary

/-- A reply that reports what the host has handed back. -/
structure Reply.Reports {α β : Type} (reply : Reply β) (places : Places) (write : α → β)
    (r : Except HostError α) (gas : Report) : Prop where
  code_ok : ∀ a, r = .ok a → reply.code.toInt = 0
  code_error : ∀ e, r = .error e → reply.code.toInt = e.code.toInt ∧ reply.code.toInt ≠ 0
  gas_eq : reply.gas = if places.gas then some gas.total else none
  /-- The message of a refusal is written exactly when the code is not zero. -/
  error_iff : reply.error.isSome = true ↔ places.error = true ∧ reply.code.toInt ≠ 0
  error_eq : ∀ text, reply.error = some text → ∃ e, r = .error e ∧ text = e.message
  /-- The outputs are written exactly when the code is zero. -/
  output_iff : reply.output.isSome = true ↔ reply.code.toInt = 0
  output_eq : ∀ b, reply.output = some b → ∃ a, r = .ok a ∧ b = write a

/-- No refusal has the code of success. -/
theorem HostError.toInt_code_ne_zero (e : HostError) : e.code.toInt ≠ 0 := by
  cases e with
  | notFound what => exact (by decide : ErrorCode.notFound.toInt ≠ 0)
  | outOfGas limit requested => exact (by decide : ErrorCode.outOfGas.toInt ≠ 0)
  | _ => exact (by decide : ErrorCode.other.toInt ≠ 0)

theorem Boundary.reply_reports {α β : Type} (places : Places) (write : α → β)
    (r : Except HostError α) (gas : Report) :
    (reply places (mapOk write (r, gas))).Reports places write r gas := by
  cases r with
  | ok a =>
      exact
        { code_ok := fun _ _ => rfl
          code_error := nofun
          gas_eq := rfl
          error_iff := ⟨nofun, fun h => absurd rfl h.2⟩
          error_eq := nofun
          output_iff := ⟨fun _ => rfl, fun _ => rfl⟩
          output_eq := fun _ h => ⟨a, rfl, (Option.some.inj h).symm⟩ }
  | error e =>
      -- Whether anything is an output or a complaint depends on the code alone.
      have hcode := e.toInt_code_ne_zero
      have herror : (reply places (mapOk write (.error e, gas))).error =
          if places.error then some e.message else none := rfl
      refine
        { code_ok := nofun
          code_error := ?_
          gas_eq := rfl
          error_iff := ?_
          error_eq := ?_
          output_iff := ⟨nofun, fun h => absurd h hcode⟩
          output_eq := nofun }
      · intro e' he
        cases he
        exact ⟨rfl, hcode⟩
      · rw [herror]
        -- The complaint is written if there is a place for it, and the code is not zero either way.
        cases places.error with
        | false => exact ⟨nofun, fun h => nomatch h.1⟩
        | true => exact ⟨fun _ => ⟨rfl, hcode⟩, fun _ => rfl⟩
      · intro text htext
        rw [herror] at htext
        cases hplace : places.error with
        | false =>
            rw [hplace] at htext
            cases htext
        | true =>
            rw [hplace] at htext
            exact ⟨e, rfl, (Option.some.inj htext).symm⟩

namespace Callback

variable {c : Callback} {places : Places} {q : Inquiry} {write : q.Answer → c.Output}

/-- A callback whose arguments are in order relays its inquiry. -/
theorem Asks.run_eq (h : c.Asks q write) (hplaced : c.Placed places) (host : Host) :
    c.run (some host) places = Boundary.relay c.name places write (host.answer q) := by
  have hplace : ∀ what, places.first = true → Boundary.place places.first what = pure () := by
    intro what hfirst
    rw [hfirst]
    rfl
  have hplace' : ∀ what, places.second = true → Boundary.place places.second what = pure () := by
    intro what hsecond
    rw [hsecond]
    rfl
  -- What is in order passes its test, so the tests drop out and only the request is left.
  cases h with
  | get hkey =>
      simp only [run, Boundary.get, Boundary.host, Boundary.bytes_of_read hkey,
        hplace _ hplaced, pure_bind]
      rfl
  | set hkey hvalue =>
      simp only [run, Boundary.set, Boundary.host, Boundary.bytes_of_read hkey,
        Boundary.bytes_of_read hvalue, pure_bind]
      exact (Boundary.relay_id _ _ _).symm
  | delete hkey =>
      simp only [run, Boundary.delete, Boundary.host, Boundary.bytes_of_read hkey, pure_bind]
      exact (Boundary.relay_id _ _ _).symm
  | @scan call start stop number order horder =>
      -- The number stands for the order, and the other way round.
      have hread : World.onStore (Attempt.ofExcept (Order.ofInt number)) = pure order := by
        rw [horder]
        cases order with
        | ascending => rfl
        | descending => rfl
      simp only [run, Boundary.scan, Boundary.host, hread, hplace _ hplaced, pure_bind]
      exact (Boundary.relay_id _ _ _).symm
  | next =>
      simp only [run, Boundary.next, Boundary.host, hplace _ hplaced.1, hplace' _ hplaced.2,
        pure_bind]
      rfl
  | humanize hinput =>
      simp only [run, Boundary.humanize, Boundary.host, Boundary.bytes_of_read hinput,
        hplace _ hplaced, pure_bind]
      rfl
  | canonicalize hinput =>
      simp only [run, Boundary.canonicalize, Boundary.host, Boundary.text_of_spells hinput,
        hplace _ hplaced, pure_bind]
      rfl
  | resolveCall hcontract hstore =>
      simp only [run, Boundary.resolveCall, Boundary.host, Boundary.text_of_spells hcontract,
        Boundary.text_of_spells hstore, hplace _ hplaced.1, hplace' _ hplaced.2, pure_bind]
      rfl
  | transfer hcontract hpayer hcoins =>
      simp only [run, Boundary.transfer, Boundary.host, Boundary.text_of_spells hcontract,
        Boundary.text_of_spells hpayer, Boundary.document_of_documents hcoins, pure_bind]
      exact (Boundary.relay_id _ _ _).symm
  | createContract hrequest =>
      simp only [run, Boundary.createContract, Boundary.host,
        Boundary.document_of_documents hrequest, hplace _ hplaced, pure_bind]
      rfl
  | query hrequest =>
      simp only [run, Boundary.query, Boundary.host, Boundary.bytes_of_read hrequest,
        hplace _ hplaced, pure_bind]
      rfl

/-- A callback is the host's answer with a reply made of it, also if the host has panicked. -/
theorem Asks.run_apply (h : c.Asks q write) (hplaced : c.Placed places) (host : Host) (w : World) :
    c.run (some host) places w =
      (Boundary.reply places (Boundary.settle c.name
        ((host.answer q w).1.map fun r => .ok (Boundary.mapOk write r))), (host.answer q w).2) := by
  rw [h.run_eq hplaced]
  exact Boundary.relay_apply _ _ _ _ w

/-- A callback whose arguments are in order, and whose places are there, asks one inquiry. If
    the host comes to an end with it, the world is the one that the host has left, and the
    reply reports what the host has handed back. -/
theorem run_reports (hwf : c.WellFormed) (hplaced : c.Placed places) (host : Host) :
    (∃ q write, c.Asks q write) ∧
      ∀ q write, c.Asks q write → Function.Injective write ∧
        ∀ w r gas w', host.answer q w = (.ok (r, gas), w') →
          ∃ reply, c.run (some host) places w = (reply, w') ∧
            reply.Reports places write r gas := by
  refine ⟨hwf.asks, fun q write h => ⟨h.write_injective, fun w r gas w' hanswer => ?_⟩⟩
  have hrun := h.run_apply hplaced host w
  rw [hanswer] at hrun
  exact ⟨_, hrun, Boundary.reply_reports places write r gas⟩

end Callback

/-- All places are there. -/
def Places.all : Places := ⟨true, true, true, true⟩

/-- A world in which there is an empty value under an empty key. -/
def World.holding : World := (Host.small.set ⟨1⟩ [] [] .small).2

/-- A key that is missing is reported as an absent buffer, and an empty value as a buffer that
    holds nothing. -/
theorem Callback.run_reports_of_missing :
    (∃ reply, (Callback.get 1 (.ofBytes [0])).run (some .small) .all .holding =
        (reply, (Host.small.get ⟨1⟩ [0] .holding).2) ∧
      reply.Reports .all Buffer.mk (.ok none) ⟨0, 1003⟩) ∧
    ∃ reply, (Callback.get 1 (.ofBytes [])).run (some .small) .all .holding =
        (reply, (Host.small.get ⟨1⟩ [] .holding).2) ∧
      reply.Reports .all Buffer.mk (.ok (some [])) ⟨0, 1000⟩ := by
  have hwf : ∀ b, Callback.WellFormed (.get 1 (.ofBytes b)) := fun _ => rfl
  have hplaced : ∀ b, Callback.Placed .all (.get 1 (.ofBytes b)) := fun _ => rfl
  have hmissing := (Callback.run_reports (hwf [0]) (hplaced [0]) .small).2 _ _ (.get rfl)
  have hempty := (Callback.run_reports (hwf []) (hplaced []) .small).2 _ _ (.get rfl)
  exact ⟨hmissing.2 .holding _ _ _ (Prod.ext (by decide +kernel) rfl),
    hempty.2 .holding _ _ _ (Prod.ext (by decide +kernel) rfl)⟩

end ContractHost
