import ContractHost.Host.Basic
import ContractHost.Query.Response

/-!
# Other Requests

Addresses, coins, new contracts, nested calls and queries.

A nested call is resolved in full before anything is registered: its depth, what the
address stands for, and whether the code identifier is a checksum. A query runs on a
meter of its own, and whether it went over its limit is read off that meter, not off
what the querier says.

## Main definitions

* `Host.canonicalize`, `Host.humanize`: Addresses.
* `Host.transfer`, `Host.createContract`: Coins and contracts.
* `Host.resolveCall`: Registers a nested call.
* `World.query`, `World.queryDecoded`: Queries.
-/

namespace ContractHost

/-- A nested call that has been registered. -/
structure ResolvedCall where
  checksum : Checksum
  call : Handle

namespace Host

variable (host : Host)

/-- The canonical form of an address, for a charge per byte. -/
def canonicalize (call : Handle) (human : String) : World.Action (Metered Bytes) :=
  World.withContext call fun ctx => do
    World.charge ctx (host.prices.address (Utf8.encode human).size)
    World.onChain (host.capabilities.canonicalize ctx human)

/-- The form that people use of an address, for a charge per byte. -/
def humanize (call : Handle) (canonical : Bytes) : World.Action (Metered String) :=
  World.withContext call fun ctx => do
    World.charge ctx (host.prices.address canonical.size)
    World.onChain (host.capabilities.humanize ctx canonical)

/-- Moves coins from `payer` to `receiver`. -/
def transfer (call : Handle) (receiver payer : String) (coins : List Coin) :
    World.Action (Metered Unit) :=
  World.withContext call fun ctx =>
    World.onChain (host.capabilities.transfer ctx receiver payer coins)

/-- Creates a contract and returns its address. -/
def createContract (call : Handle) (request : CreateRequest) (gasLimit : UInt64) :
    World.Action (Metered String) :=
  World.withContext call fun ctx =>
    World.onChain (host.capabilities.createContract ctx request gasLimit)

/-- Registers a call of a contract, below the call that asks, on the storage of
    `store`. Whoever asks has to release it. -/
def resolveCall (call : Handle) (contract store : String) :
    World.Action (Metered ResolvedCall) :=
  World.withContext call fun ctx => do
    -- The depth is looked at first, so that a call too deep never asks the capability.
    if host.maxDepth < ctx.childDepth then
      throw (.callDepthExceeded ctx.childDepth host.maxDepth)
    else
      let found ← World.onChain (host.capabilities.resolveCall ctx contract store)
      let checksum ← Attempt.ofExcept (Checksum.ofIdentifier found.code)
      -- Nothing can be refused from here on.
      let (child, w) := (← getThe World).registerChild ctx found.binding
      MonadStateOf.set w
      return ⟨checksum, child⟩

end Host

namespace World

/-- Asks the call's querier, on a meter with the given limit. A querier that went over
    the limit is out of gas whatever it answered, and no more than the limit is
    reported. -/
def query (call : Handle) (request : Bytes) (gasLimit : UInt64) :
    Action (Metered Bytes) := do
  let w ← getThe World
  match w.registry.lookup call with
  | .error e => return (.error e, .free)
  | .ok ctx =>
    let (answer, meter) := (ctx.binding.querier w.chain request).run (.new (some gasLimit))
    let result ← liftExcept answer
    let consumed := meter.consumed
    -- The querier's own refusal does not count here: it may have wrapped the meter's.
    if gasLimit < consumed then
      return (.error (.outOfGas gasLimit consumed), .ofExternal gasLimit)
    else return (result, .ofExternal consumed)
where
  /-- A panic of the querier is one of the request. -/
  liftExcept {α : Type} (r : Except Panic α) : Action α := ExceptT.mk (pure r)

/-- Asks the call's querier and reads its answer as a response. -/
def queryDecoded (call : Handle) (request : Bytes) (gasLimit : UInt64) :
    Action (Metered Response) := do
  let (result, used) ← query call request gasLimit
  return (result.map Response.parse, used)

end World

end ContractHost
