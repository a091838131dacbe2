import ContractHost.Host.Engine
import ContractHost.Host.Storage
import ContractHost.Script.Op

/-!
# The Script Engine

An engine whose messages are scripts. Operations run one after the other, each costs
one unit of engine gas on top of what the host charges, and the first one that fails
ends the run. The output is a list with one entry per operation.

A run may use as much gas as its invocation allows; whether it does is looked at after
every operation. A nested call is allowed what is left before it.

Nested calls go through the host and back into the engine with a message of their own,
so the engine is defined by levels. A script is nested less deeply than its message,
and messages are refused beyond `nestingLimit` levels; no run goes below level zero.

## Main definitions

* `Script.Setting`: What the operations of a run share.
* `Script.step`: One operation.
* `Script.runOps`: The operations of a run.
* `Script.engineOver`, `Script.engineAt`, `Script.engine`: The engine.
-/

namespace ContractHost

namespace Script

/-- The gas of the engine itself for one operation. -/
def opCost : UInt64 := 1

/-- The error of a message that is no script, or of an output that is no document. -/
def malformed : HostError := .engine malformedJson

/-- What the operations of a run share. -/
structure Setting where
  host : Host
  /-- The engine that nested calls run on. -/
  nested : Engine
  invocation : Invocation
  call : Handle

/-- A text as an output. Bytes that are no text are shown as far as they are. -/
def shown (b : Bytes) : Node := .text (Utf8.lossy b)

/-- The records a cursor still meets, and the gas the steps took. Every step but the
    last meets a record, so there are no more than one step per record and one for the
    end; `steps` bounds them. -/
def drain (host : Host) (cursor : CursorId) :
    (steps : Nat) → (gas : Report) → World.Action (Metered (List Record))
  | 0, gas => return (.ok [], gas)
  | steps + 1, gas => do
    let (found, used) ← host.next cursor
    let gas := gas + used
    match found with
    | .error e => return (.error e, gas)
    | .ok none => return (.ok [], gas)
    | .ok (some e) =>
      let (rest, gas) ← drain host cursor steps gas
      return (rest.map (e :: ·), gas)

/-- How many records there are in the memory that the store of a call reaches. -/
def recordCount (w : World) (call : Handle) : Nat :=
  match w.registry.lookup call with
  | .ok ctx => (w.chain.memory ctx.binding.store.base).size
  | .error _ => 0

/-- The output of a scan. -/
def recordsNode (found : List Record) : Node :=
  .list (found.map fun e => .list [shown e.1, shown e.2])

/-- The output of a query. -/
def responseNode : Response → Node
  | .ok (.ok data) => .object [("ok", shown data)]
  | .ok (.err text) => .object [("contract_err", .text text)]
  | .err error => .object [("system_err", .text error.shown)]

/-- The tree that a nested run's output holds, if every string of it is a text. -/
def outputReader : Reader Node
  | _, .null => some .null
  | _, .bool b => some (.bool b)
  | _, .integer n => some (.integer n)
  | _, .text s => some (.text s)
  | depth + 1, .list items => do some (.list (← items.mapM (outputReader depth)))
  | depth + 1, .record members => do
    let members ← members.mapM fun (label, content) => do
      some (some (← label), ← outputReader depth content)
    some (.record members)
  | _, .other => some .other
  | _, _ => none

/-- The output of a nested run as part of the caller's. -/
def nestedOutput (b : Bytes) : Except HostError Node :=
  match (Json.read? b).bind (outputReader nestingLimit) with
  | some n => .ok n
  | none => .error malformed

/-- What the host is asked for by an operation that calls a contract. The caller is the
    contract that runs, and the callee is allowed what is left of the caller's gas. -/
def nestedCall (s : Setting) (used : Report) (ctx : Context) (contract : String)
    (delegate : Bool) (funds : List Coin) (ops : List Op) : ContractCall where
  contract := contract
  delegate := delegate
  sender := ctx.binding.contractAddress.getD ""
  funds := funds
  env := s.invocation.env
  msg := encode ops
  gasLimit := Word.sub s.invocation.gasLimit used.total

/-- What an operation does, with the gas it takes besides its own cost: `used` is what
    the run has used before it. -/
def perform (s : Setting) (used : Report) : Op → World.Action (Metered Node)
  | .set key value => do
    let (r, gas) ← s.host.set s.call (Utf8.encode key) (Utf8.encode value)
    return (r.map fun _ => .null, gas)
  | .get key => do
    let (r, gas) ← s.host.get s.call (Utf8.encode key)
    return (r.map fun value => .optional (value.map shown), gas)
  | .delete key => do
    let (r, gas) ← s.host.delete s.call (Utf8.encode key)
    return (r.map fun _ => .null, gas)
  | .scan start stop descending => do
    let order := if descending then .descending else .ascending
    let (r, gas) ← s.host.scan s.call ⟨start.map Utf8.encode, stop.map Utf8.encode⟩ order
    match r with
    | .error e => return (.error e, gas)
    | .ok cursor =>
      let (found, gas) ← drain s.host cursor (recordCount (← getThe World) s.call + 1) gas
      return (found.map recordsNode, gas)
  | .call contract delegate funds ops => do
    match (← getThe World).registry.lookup s.call with
    | .error e => return (.error e, .free)
    | .ok ctx =>
      let (r, gas) ← s.host.callContract s.nested s.call
        (nestedCall s used ctx contract delegate funds ops)
      return (r.bind nestedOutput, gas)
  | .query request gasLimit => do
    let (r, gas) ← World.queryDecoded s.call (Utf8.encode request) gasLimit
    return (r.map responseNode, gas)
  | .canonicalize address => do
    let (r, gas) ← s.host.canonicalize s.call address
    return (r.map fun b => .text (Hex.encode b), gas)
  | .fail message => return (.error (.engine message), .free)
  | .panic message => Action.panic ⟨message⟩

/-- One operation, with the gas the run has used before it and after it. -/
def step (s : Setting) (used : Report) (op : Op) : World.Action (Metered Node) := do
  let (r, gas) ← perform s used op
  let used := used + gas
  match r with
  | .error e => return (.error e, used)
  | .ok output =>
    -- An operation that takes the run over its limit has taken effect all the same.
    let used := used + Report.ofCost opCost
    if s.invocation.gasLimit < used.total then
      return (.error (.outOfGas s.invocation.gasLimit used.total), used)
    else return (.ok output, used)

/-- The operations of a run, with their outputs, up to the first that fails. -/
def runOps (s : Setting) : (used : Report) → List Op → World.Action (Metered (List Node))
  | used, [] => return (.ok [], used)
  | used, op :: ops => do
    let (r, used) ← step s used op
    match r with
    | .error e => return (.error e, used)
    | .ok output =>
      let (rest, used) ← runOps s used ops
      return (rest.map (output :: ·), used)

/-- Notes that an engine runs for a call. -/
def noteRun (invocation : Invocation) (call : Handle) : World.Action Unit :=
  modifyThe World fun w =>
    let depth := match w.registry.lookup call with
      | .ok ctx => ctx.depth
      | .error _ => 0
    { w with runs := w.runs ++ [⟨invocation.entry, invocation.checksum, call, depth⟩] }

/-- The engine whose nested calls run on another. -/
def engineOver (host : Host) (nested : Engine) : Engine := fun invocation call => do
  noteRun invocation call
  match decode? invocation.msg with
  | none => return (.error malformed, .free)
  | some ops =>
    let (r, used) ← runOps ⟨host, nested, invocation, call⟩ .free ops
    return (r.map fun outputs => Json.write (.list outputs), used)

/-- The engine that runs nothing. -/
def refusal : Engine := fun _ _ => return (.error malformed, .free)

/-- The engine with `level` levels of nested calls below it. -/
def engineAt (host : Host) : (level : Nat) → Engine
  | 0 => engineOver host refusal
  | level + 1 => engineOver host (engineAt host level)

/-- The engine. -/
def engine (host : Host) : Engine := engineAt host nestingLimit

end Script

end ContractHost
