import ContractHost.Document.Json
import ContractHost.Document.Reader
import ContractHost.Text.Quoted

/-!
# Query Responses

A response says whether the query reached a contract. If it did, it holds what the
contract answered: data, or the contract's own error. If not, it holds the system's
error. Responses travel as JSON, with byte strings in Base64.

## Main definitions

* `SystemError`: Why a query did not reach a contract.
* `ContractResult`: What a contract answered.
* `Response`: A response.
* `Response.parse`: The response of some bytes; bytes that are none are a system error
  that holds them.
-/

namespace ContractHost

/-- What stands in the place of a complaint about malformed JSON. -/
def malformedJson : String := "<json>"

/-- Why a query did not reach a contract. -/
inductive SystemError
  | invalidRequest (error : String) (request : Bytes)
  | invalidResponse (error : String) (response : Bytes)
  | noSuchContract (addr : String)
  | unknown
  | unsupportedRequest (kind : String)
deriving DecidableEq

namespace SystemError

/-- An alternative as a document. -/
def choiceNode (name : String) (content : Node) : Node := .object [(name, content)]

/-- An error as a document. -/
def toNode : SystemError → Node
  | invalidRequest error request =>
    choiceNode "invalid_request"
      (.object [("error", .text error), ("request", .text (Base64.encode request))])
  | invalidResponse error response =>
    choiceNode "invalid_response"
      (.object [("error", .text error), ("response", .text (Base64.encode response))])
  | noSuchContract addr => choiceNode "no_such_contract" (.object [("addr", .text addr)])
  | unknown => choiceNode "unknown" (.object [])
  | unsupportedRequest kind => choiceNode "unsupported_request" (.object [("kind", .text kind)])

/-- Reads an error. -/
def reader : Reader SystemError := fun depth n => do
  let (name, content, depth) ← Reader.choice depth n
  if name = "invalid_request" then
    let f ← Reader.fields ["error", "request"] depth content
    some (invalidRequest (← f.get? "error" Reader.text) (← f.get? "request" Reader.base64))
  else if name = "invalid_response" then
    let f ← Reader.fields ["error", "response"] depth content
    some (invalidResponse (← f.get? "error" Reader.text) (← f.get? "response" Reader.base64))
  else if name = "no_such_contract" then
    let f ← Reader.fields ["addr"] depth content
    some (noSuchContract (← f.get? "addr" Reader.text))
  else if name = "unknown" then
    let _ ← Reader.fields [] depth content
    some unknown
  else if name = "unsupported_request" then
    let f ← Reader.fields ["kind"] depth content
    some (unsupportedRequest (← f.get? "kind" Reader.text))
  else none

/-- A byte string as a list of numbers. -/
def bytesText (b : Bytes) : String :=
  "[" ++ ", ".intercalate (b.map fun x => toString x.toNat) ++ "]"

/-- A record of an alternative's members, in the form of a diagnostic. -/
def recordText (name : String) (members : List (String × String)) : String :=
  name ++ " \x7b " ++ ", ".intercalate (members.map fun m => m.1 ++ ": " ++ m.2) ++ " \x7d"

/-- An error in the form of a diagnostic. -/
def diagnostic : SystemError → String
  | invalidRequest error request =>
    recordText "InvalidRequest" [("error", Quoted.text error), ("request", bytesText request)]
  | invalidResponse error response =>
    recordText "InvalidResponse" [("error", Quoted.text error), ("response", bytesText response)]
  | noSuchContract addr => recordText "NoSuchContract" [("addr", Quoted.text addr)]
  | unknown => "Unknown"
  | unsupportedRequest kind => recordText "UnsupportedRequest" [("kind", Quoted.text kind)]

/-- An error as a script shows it: a diagnostic in which the complaint about a
    malformed response is left out, as it is worded by whoever read the response. -/
def shown : SystemError → String
  | invalidResponse _ response => (invalidResponse malformedJson response).diagnostic
  | error => error.diagnostic

end SystemError

/-- What a contract answered. -/
inductive ContractResult
  | ok (data : Bytes)
  | err (text : String)
deriving DecidableEq

namespace ContractResult

/-- An answer as a document. -/
def toNode : ContractResult → Node
  | ok data => .object [("ok", .text (Base64.encode data))]
  | err text => .object [("err", .text text)]

/-- Reads an answer. -/
def reader : Reader ContractResult := fun depth n => do
  let (name, content, depth) ← Reader.choice depth n
  if name = "ok" then (Reader.base64 depth content).map ok
  else if name = "err" then (Reader.text depth content).map err
  else none

end ContractResult

/-- The answer of a contract, or the reason why the query reached none. -/
inductive Response
  | ok (result : ContractResult)
  | err (error : SystemError)
deriving DecidableEq

namespace Response

/-- A response as a document. -/
def toNode : Response → Node
  | ok result => .object [("ok", result.toNode)]
  | err error => .object [("err", error.toNode)]

/-- Reads a response. -/
def reader : Reader Response := fun depth n => do
  let (name, content, depth) ← Reader.choice depth n
  if name = "ok" then (ContractResult.reader depth content).map ok
  else if name = "err" then (SystemError.reader depth content).map err
  else none

/-- A response as bytes. -/
def encode (r : Response) : Bytes := Json.write r.toNode

/-- The response that some bytes hold, if they hold one. -/
def decode? (b : Bytes) : Option Response := (Json.read? b).bind (reader nestingLimit)

/-- The response of some bytes; bytes that hold none are a system error with them. -/
def parse (b : Bytes) : Response :=
  match decode? b with
  | some r => r
  | none => err (.invalidResponse malformedJson b)

/-- Whether a contract answered, with data or with an error of its own. -/
def isOk : Response → Bool
  | ok _ => true
  | err _ => false

end Response

end ContractHost
