import ContractHost.Boundary.View
import ContractHost.Host.Requests
import ContractHost.Host.Storage

/-!
# Callbacks of a Native Engine

A native engine reaches the host through a table of callbacks. Each is given a pointer
to the host, plain words, views, and places for what comes back; any pointer may be
null. A callback returns a code, writes the gas that was used, and on failure a
message. Its outputs are written on success only.

A call that makes no sense (a null host, a missing view, text that is no text, a
message that does not decode, a null place for an output) is refused before the host
is asked, and is free. A panic ends at the boundary as a failure.

## Main definitions

* `Places`: Which places for results are there.
* `Reply`: What a callback returns and writes.
* `Boundary.serve`: Turns a request into a reply.
* `Boundary.get` and so on: The callbacks.
-/

namespace ContractHost

/-- Which places for results are there, that is, not null. -/
structure Places where
  /-- The place for the gas. -/
  gas : Bool
  /-- The place for the message of a failure. -/
  error : Bool
  /-- The place for the first output. -/
  first : Bool
  /-- The place for the second output. -/
  second : Bool

/-- What a callback returns and writes. -/
structure Reply (α : Type) where
  code : ErrorCode
  /-- The gas, if it was written. -/
  gas : Option UInt64
  /-- The message of a failure, if it was written. -/
  error : Option String
  /-- The outputs, if they were written. -/
  output : Option α

namespace Boundary

/-- A step of the boundary. It cannot panic. -/
abbrev Step (α : Type) := StateM World (Reply α)

/-- The host behind a pointer. -/
def host (state : Option Host) : World.Attempt Host :=
  match state with
  | some h => return h
  | none => throw (.other "host state is null")

/-- The bytes of a view that has to be there. -/
def bytes (v : View) (what : String) : World.Attempt Bytes :=
  match v.read with
  | some b => return b
  | none => throw (.other (what ++ " is nil"))

/-- The text of a view that has to hold one. -/
def text (v : View) (what : String) : World.Attempt String := do
  match Utf8.decode (← bytes v what) with
  | .ok s => return s
  | .error fault => throw (.other (what ++ " is not utf-8: " ++ fault.message))

/-- The value of a view that has to hold one in JSON. -/
def document {α : Type} (reader : Reader α) (v : View) (what complaint : String) :
    World.Attempt α := do
  match (Json.read? (← bytes v what)).bind (reader nestingLimit) with
  | some a => return a
  | none => throw (.other (complaint ++ ": " ++ malformedJson))

/-- Refuses a null place for an output. -/
def place (present : Bool) (what : String) : World.Attempt Unit :=
  if present then return () else throw (.other (what ++ " output is null"))

/-- The result of a request, with refusals of the boundary itself and panics as
    failures that are free. -/
def settle {α : Type} (name : String) :
    Except Panic (Except HostError (Metered α)) → Metered α
  | .ok (.ok outcome) => outcome
  | .ok (.error e) => (.error e, .free)
  | .error p => (.error (.other ("panic in " ++ name ++ ": " ++ p.message)), .free)

/-- The reply for a result. -/
def reply {α : Type} (places : Places) (result : Metered α) : Reply α where
  code :=
    match result.1 with
    | .ok _ => .none
    | .error e => e.code
  gas := if places.gas then some result.2.total else none
  error :=
    match result.1 with
    | .ok _ => none
    | .error e => if places.error then some e.message else none
  output := result.1.toOption

/-- Turns a request into a reply. The outer attempt is what the boundary makes of the
    arguments, the inner result what the host makes of the request. -/
def serve {α : Type} (name : String) (places : Places)
    (request : World.Attempt (Metered α)) : StateM World (Reply α) := do
  return reply places (settle name (← request.outcome.caught))

/-- A request of the host as the last step of a callback. -/
def ask {α : Type} (request : World.Action (Metered α)) : World.Attempt (Metered α) :=
  liftM request

/-- A result whose value is changed. -/
def mapOk {α β : Type} (f : α → β) (result : Metered α) : Metered β :=
  (result.1.map f, result.2)

/-! ## Storage -/

/-- Reads a value into a buffer, which stays absent when there is none. -/
def get (state : Option Host) (places : Places) (call : UInt64) (key : View) : Step Buffer :=
  serve "db_get" places do
    let host ← host state
    let key ← bytes key "key"
    place places.first "value"
    return mapOk Buffer.mk (← ask (host.get ⟨call⟩ key))

/-- Writes a value. -/
def set (state : Option Host) (places : Places) (call : UInt64) (key value : View) :
    Step Unit :=
  serve "db_set" places do
    let host ← host state
    let key ← bytes key "key"
    let value ← bytes value "value"
    ask (host.set ⟨call⟩ key value)

/-- Removes a record. -/
def delete (state : Option Host) (places : Places) (call : UInt64) (key : View) : Step Unit :=
  serve "db_delete" places do
    let host ← host state
    let key ← bytes key "key"
    ask (host.delete ⟨call⟩ key)

/-- Opens a cursor; an absent view is an absent bound. -/
def scan (state : Option Host) (places : Places) (call : UInt64) (start stop : View)
    (order : Int) : Step CursorId :=
  serve "db_scan" places do
    let host ← host state
    let order ← World.onStore (Attempt.ofExcept (Order.ofInt order))
    place places.first "iterator"
    ask (host.scan ⟨call⟩ ⟨start.read, stop.read⟩ order)

/-- The two buffers of a record, both absent when there is none. -/
def recordBuffers : Option Record → Buffer × Buffer
  | none => (.none, .none)
  | some (key, value) => (.some key, .some value)

/-- Moves a cursor and reads the record it meets into two buffers. -/
def next (state : Option Host) (places : Places) (call number : UInt64) :
    Step (Buffer × Buffer) :=
  serve "iterator_next" places do
    let host ← host state
    place places.first "key"
    place places.second "value"
    return mapOk recordBuffers (← ask (host.next ⟨⟨call⟩, number⟩))

/-! ## Other requests -/

/-- Converts a canonical address. -/
def humanize (state : Option Host) (places : Places) (call : UInt64) (input : View) :
    Step Buffer :=
  serve "humanize_address" places do
    let host ← host state
    let canonical ← bytes input "canonical address"
    place places.first "human address"
    return mapOk (fun s => .some (Utf8.encode s)) (← ask (host.humanize ⟨call⟩ canonical))

/-- Converts an address that people use. -/
def canonicalize (state : Option Host) (places : Places) (call : UInt64) (input : View) :
    Step Buffer :=
  serve "canonicalize_address" places do
    let host ← host state
    let human ← text input "human address"
    place places.first "canonical address"
    return mapOk .some (← ask (host.canonicalize ⟨call⟩ human))

/-- Registers a nested call: its checksum and its handle. -/
def resolveCall (state : Option Host) (places : Places) (call : UInt64)
    (contract store : View) : Step (Buffer × UInt64) :=
  serve "resolve_call" places do
    let host ← host state
    let contract ← text contract "contract address"
    let store ← text store "store address"
    place places.first "checksum"
    place places.second "call id"
    return mapOk (fun r => (.some r.checksum.bytes, r.call.id))
      (← ask (host.resolveCall ⟨call⟩ contract store))

/-- Moves coins that are given as a document. -/
def transfer (state : Option Host) (places : Places) (call : UInt64)
    (contract payer coins : View) : Step Unit :=
  serve "transfer_coins" places do
    let host ← host state
    let contract ← text contract "contract address"
    let payer ← text payer "caller"
    let coins ← document Coin.listReader coins "coins" "coins"
    ask (host.transfer ⟨call⟩ contract payer coins)

/-- Creates a contract for a request that is given as a document. -/
def createContract (state : Option Host) (places : Places) (call gasLimit : UInt64)
    (request : View) : Step Buffer :=
  serve "create_contract" places do
    let host ← host state
    let request ← document CreateRequest.reader request "request" "create request"
    place places.first "address"
    return mapOk (fun s => .some (Utf8.encode s))
      (← ask (host.createContract ⟨call⟩ request gasLimit))

/-- Asks the querier. -/
def query (state : Option Host) (places : Places) (call gasLimit : UInt64) (request : View) :
    Step Buffer :=
  serve "query_external" places do
    let _ ← host state
    let request ← bytes request "request"
    place places.first "result"
    return mapOk .some (← ask (World.query ⟨call⟩ request gasLimit))

/-- Hands out the module cache. There is no place for gas. -/
def cache (state : Option Host) (places : Places) : Step Unit :=
  serve "get_cache" { places with gas := false } do
    let _ ← host state
    place places.first "cache"
    return (.ok (), .free)

/-- Releases a call. A call that is not live is no failure. -/
def release (state : Option Host) (call : UInt64) : StateM World ErrorCode := do
  match state with
  | none => return .other
  | some _ =>
    modify fun w => w.release ⟨call⟩
    return .none

end Boundary

end ContractHost
