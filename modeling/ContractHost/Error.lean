import ContractHost.Word

/-!
# Errors

The reasons for which a store or the host refuses a request, the wording of each,
and the code under which it crosses the boundary to a native engine.

## Main definitions

* `StoreError`: Why a store refuses a request.
* `HostError`: Why the host refuses a request.
* `HostError.ofStore`: A store's refusal as the host passes it on.
* `ErrorCode`: The codes of the boundary.
* `HostError.code`: The code of a refusal.
* `Panic`: A crash of a component, with its message.
-/

namespace ContractHost

/-- Why a store refuses a request. -/
inductive StoreError
  /-- A range starts after its end. -/
  | invalidRange
  /-- A number stands for no order of iteration. -/
  | invalidOrder (value : Int)
  /-- The medium behind the store failed. -/
  | backend (text : String)
deriving DecidableEq

/-- The wording of a store's refusal. -/
def StoreError.message : StoreError → String
  | .invalidRange => "store: range start is after range end"
  | .invalidOrder value => s!"store: unknown iteration order {value}"
  | .backend text => "store: backend failure: " ++ text

/-- Why the host refuses a request. -/
inductive HostError
  /-- Something named does not exist. -/
  | notFound (what : String)
  /-- A meter passed its limit. -/
  | outOfGas (limit requested : UInt64)
  /-- A range starts after its end. -/
  | invalidRange
  /-- A store refused for another reason. -/
  | storage (cause : StoreError)
  /-- A host capability refused. -/
  | api (text : String)
  /-- A query could not be served. -/
  | query (text : String)
  /-- A nested call would lie too deep. -/
  | callDepthExceeded (depth max : UInt32)
  /-- A code identifier is no checksum. -/
  | invalidChecksum (length : Nat)
  /-- An engine failed. -/
  | engine (text : String)
  /-- Any other reason. -/
  | other (text : String)
deriving DecidableEq

/-- A crash of a component, with its message. -/
structure Panic where
  message : String
deriving DecidableEq

/-- The codes under which an outcome crosses the boundary. -/
inductive ErrorCode
  | none
  | notFound
  | outOfGas
  | other
deriving DecidableEq

namespace ErrorCode

/-- The number of a code. -/
def toInt : ErrorCode → Int
  | none => 0
  | notFound => 1
  | outOfGas => 2
  | other => 3

/-- The code of a number; an unknown number is some other failure. -/
def ofInt (n : Int) : ErrorCode :=
  if n = 0 then none else if n = 1 then notFound else if n = 2 then outOfGas else other

/-- The wording of a code. -/
def text : ErrorCode → String
  | none => "none"
  | notFound => "not found"
  | outOfGas => "out of gas"
  | other => "other"

/-- Whether the code stands for success. -/
def isOk : ErrorCode → Bool
  | none => true
  | _ => false

end ErrorCode

namespace HostError

/-- The wording of a refusal. -/
def message : HostError → String
  | notFound what => what ++ " not found"
  | outOfGas limit requested => s!"out of gas: limit {limit}, requested {requested}"
  | invalidRange => "invalid range: start is after end"
  | storage cause => cause.message
  | api text => "api: " ++ text
  | query text => "query: " ++ text
  | callDepthExceeded depth max => s!"call depth {depth} exceeds maximum {max}"
  | invalidChecksum length => s!"checksum must be 32 bytes, got {length}"
  | engine text => "engine: " ++ text
  | other text => text

/-- The code of a refusal. -/
def code : HostError → ErrorCode
  | notFound _ => .notFound
  | outOfGas _ _ => .outOfGas
  | _ => .other

/-- A store's refusal as the host passes it on: a bad range is the host's own kind. -/
def ofStore : StoreError → HostError
  | .invalidRange => invalidRange
  | cause => storage cause

end HostError

end ContractHost
