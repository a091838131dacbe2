import ContractHost.Host.Requests

/-!
# Engines and Nested Calls

An engine runs an invocation for a registered call and reaches the host through the
call's handle. The host runs it for an entry point, and a running contract makes it
run another contract. Either way the call is registered before the engine starts and
released when the engine is done, also after a refusal or a panic.

A plain call pays the attached coins first, then runs the callee on the callee's own
storage. A delegate call moves no coins and runs the callee on the storage of the call
that makes it.

## Main definitions

* `Engine`: Runs an invocation for a call.
* `Engine.recording`: An engine that notes what it is handed.
* `Host.run`: Runs an entry point for a new top-level call.
* `ContractCall`: What a running contract asks for when it calls another.
* `Host.openCall`: Registers a call for the callee.
* `Host.callContract`: Runs another contract below a call.
-/

namespace ContractHost

/-- Runs an invocation for a registered call. -/
abbrev Engine := Invocation → Handle → World.Action (Metered Bytes)

/-- An engine that notes what it is handed before it runs. -/
def Engine.recording (engine : Engine) : Engine := fun invocation call => do
  modifyThe World fun w => { w with received := w.received ++ [(invocation, call)] }
  engine invocation call

/-- What a running contract asks for when it calls another. -/
structure ContractCall where
  contract : String
  /-- Whether the callee runs on the caller's storage. -/
  delegate : Bool
  sender : String
  funds : List Coin
  env : Bytes
  msg : Bytes
  gasLimit : UInt64

namespace Host

/-- What the caller of an entry point hands over. -/
structure Request where
  entry : EntryPoint
  checksum : Checksum
  env : Bytes
  info : Bytes
  msg : Bytes
  gasLimit : UInt64

/-- What the engine is asked to run for an entry point. -/
def topInvocation (host : Host) (request : Request) : Invocation where
  entry := request.entry
  checksum := request.checksum
  env := request.env
  info := if request.entry.takesInfo then some request.info else none
  msg := request.msg
  gasLimit := request.gasLimit
  printDebug := host.printDebug

/-- Runs an entry point for a new top-level call. -/
def run (host : Host) (engine : Engine) (binding : Binding) (request : Request) :
    World.Action (Metered Bytes) := do
  let (call, w) := (← getThe World).register binding
  MonadStateOf.set w
  World.guarding call (engine (host.topInvocation request) call)

/-- The address whose storage the callee runs on: its own, or for a delegate call the
    one that the call in progress runs on. -/
def storeAddressFor (call : Handle) (request : ContractCall) (w : World) :
    Except HostError String :=
  if request.delegate then do
    let ctx ← w.registry.lookup call
    match ctx.binding.storeAddress <|> ctx.binding.contractAddress with
    | some address => .ok address
    | none =>
      .error (.other ("delegate call from " ++ call.text ++ " which has no storage scope"))
  else .ok request.contract

/-- Pays the coins of a plain call that has some. -/
def payFunds (host : Host) (call : Handle) (request : ContractCall) :
    World.Action (Metered Unit) :=
  if request.delegate ∨ request.funds.isEmpty then return (.ok (), .free)
  else host.transfer call request.contract request.sender request.funds

/-- What the engine is asked to run for a nested call. -/
def nestedInvocation (host : Host) (request : ContractCall) (checksum : Checksum) :
    Invocation where
  entry := .execute
  checksum := checksum
  env := request.env
  info := some (Json.write (MessageInfo.toNode ⟨request.sender, request.funds⟩))
  msg := request.msg
  gasLimit := request.gasLimit
  printDebug := host.printDebug

/-- Everything that comes before the callee runs: its coins are paid, its storage is
    chosen, and a call is registered for it. -/
def openCall (host : Host) (call : Handle) (request : ContractCall) :
    World.Action (Metered ResolvedCall) := do
  -- Coins move before the callee is resolved, and stay moved if it cannot be.
  let (paid, payGas) ← payFunds host call request
  match paid with
  | .error e => return (.error e, payGas)
  | .ok () =>
    match storeAddressFor call request (← getThe World) with
    | .error e => return (.error e, payGas)
    | .ok store =>
      let (resolved, resolveGas) ← host.resolveCall call request.contract store
      return (resolved, payGas + resolveGas)

/-- Runs another contract below a call. The callee has a call of its own, which is
    released before this ends. The gas of every step taken is reported. -/
def callContract (host : Host) (engine : Engine) (call : Handle) (request : ContractCall) :
    World.Action (Metered Bytes) := do
  let (opened, gas) ← host.openCall call request
  match opened with
  | .error e => return (.error e, gas)
  | .ok child =>
    let (result, used) ← World.guarding child.call
      (engine (nestedInvocation host request child.checksum) child.call)
    return (result, gas + used)

end Host

end ContractHost
