import ContractHost.Chain.Coin

/-!
# Scripts

A script is a list of operations, as a message in JSON. A call holds the script of the
contract it calls, so scripts are trees.

Writing gives every member of every operation. Reading also takes operations whose
members are given in their order or left to their defaults, so a script that is read
and written again may look different and still means the same.

## Main definitions

* `Op`: An operation.
* `Op.toNode`, `Op.reader`: An operation as a document.
* `Script.encode`, `Script.decode?`: A script as a message.
-/

namespace ContractHost

/-- An operation of a script. -/
inductive Op
  /-- Writes a value. -/
  | set (key value : String)
  /-- Reads a value. -/
  | get (key : String)
  /-- Removes a record. -/
  | delete (key : String)
  /-- Reads all records of a range. -/
  | scan (start stop : Option String) (descending : Bool)
  /-- Runs the script of another contract. -/
  | call (contract : String) (delegate : Bool) (funds : List Coin) (ops : List Op)
  /-- Asks the querier. -/
  | query (request : String) (gasLimit : UInt64)
  /-- Converts an address. -/
  | canonicalize (address : String)
  /-- Fails. -/
  | fail (message : String)
  /-- Panics. -/
  | panic (message : String)

namespace Op

/-- An operation with its members. -/
def choiceNode (name : String) (members : List (String × Node)) : Node :=
  .object [(name, .object members)]

mutual

/-- An operation as a document. -/
def toNode : Op → Node
  | set key value => choiceNode "set" [("key", .text key), ("value", .text value)]
  | get key => choiceNode "get" [("key", .text key)]
  | delete key => choiceNode "delete" [("key", .text key)]
  | scan start stop descending =>
    choiceNode "scan"
      [("start", .optional (start.map .text)), ("end", .optional (stop.map .text)),
        ("descending", .bool descending)]
  | call contract delegate funds ops =>
    choiceNode "call"
      [("contract", .text contract), ("delegate", .bool delegate),
        ("funds", Coin.listNode funds), ("ops", .list (nodes ops))]
  | query request gasLimit =>
    choiceNode "query" [("request", .text request), ("gas_limit", .word gasLimit)]
  | canonicalize address => choiceNode "canonicalize" [("address", .text address)]
  | fail message => choiceNode "fail" [("message", .text message)]
  | panic message => choiceNode "panic" [("message", .text message)]

/-- Operations as documents. -/
def nodes : List Op → List Node
  | [] => []
  | op :: ops => op.toNode :: nodes ops

end

/-- Reads an operation other than a call from its name and its members. -/
def leafReader (name : String) : Reader Op := fun depth n => do
  if name = "set" then
    let f ← Reader.fields ["key", "value"] depth n
    some (set (← f.get? "key" Reader.text) (← f.get? "value" Reader.text))
  else if name = "get" then
    let f ← Reader.fields ["key"] depth n
    some (get (← f.get? "key" Reader.text))
  else if name = "delete" then
    let f ← Reader.fields ["key"] depth n
    some (delete (← f.get? "key" Reader.text))
  else if name = "scan" then
    let f ← Reader.fields ["start", "end", "descending"] depth n
    some
      (scan (← f.getD "start" none (Reader.optionOf Reader.text))
        (← f.getD "end" none (Reader.optionOf Reader.text))
        (← f.getD "descending" false Reader.bool))
  else if name = "query" then
    let f ← Reader.fields ["request", "gas_limit"] depth n
    some (query (← f.get? "request" Reader.text) (← f.get? "gas_limit" Reader.word))
  else if name = "canonicalize" then
    let f ← Reader.fields ["address"] depth n
    some (canonicalize (← f.get? "address" Reader.text))
  else if name = "fail" then
    let f ← Reader.fields ["message"] depth n
    some (fail (← f.get? "message" Reader.text))
  else if name = "panic" then
    let f ← Reader.fields ["message"] depth n
    some (panic (← f.get? "message" Reader.text))
  else none

/-- Reads an operation. The script of a call lies three levels below it: in the record
    that names the call, in that of its members, and in a list. -/
def reader : Reader Op
  | depth + 3, .record [(some "call", content)] => do
    let f ← Reader.fields ["contract", "delegate", "funds", "ops"] (depth + 2) content
    let contract ← f.get? "contract" Reader.text
    let delegate ← f.getD "delegate" false Reader.bool
    let funds ← f.getD "funds" [] Coin.listReader
    match f.found.lookup "ops" with
    | some (.list items) => do
      let ops ← items.mapM (reader depth)
      some (call contract delegate funds ops)
    | _ => none
  | depth + 1, .record [(some name, content)] => leafReader name depth content
  | _, _ => none

end Op

namespace Script

/-- A script as a message. -/
def encode (ops : List Op) : Bytes := Json.write (.list (Op.nodes ops))

/-- The script of a message, if the message holds one. -/
def decode? (msg : Bytes) : Option (List Op) :=
  (Json.read? msg).bind (Reader.listOf Op.reader nestingLimit)

end Script

end ContractHost
