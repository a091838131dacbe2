import ContractHost.Call.Cursor
import ContractHost.Call.Invocation
import ContractHost.Code.Cache
import ContractHost.Config.Basic
import ContractHost.Gas.Report
import ContractHost.Host.Capabilities

/-!
# The Host and its World

A host is what stays the same while calls come and go: its capabilities, its prices
and two limits. The world is what changes: the chain, the registry of calls, their
cursors, the module cache, and the log of what engines ran.

Every request names a call by its handle. A request for a call that is not live is
refused and free; any other reports the gas that its call's meter went up by, whether
the request succeeds or not.

## Main definitions

* `Host`: What stays the same.
* `World`: What changes.
* `Metered`: A result with the gas it took.
* `World.withContext`: Serves a request of a live call.
* `World.guarding`: Runs something and releases a call afterwards.
-/

namespace ContractHost

/-- What stays the same while calls come and go. -/
structure Host where
  capabilities : Capabilities
  prices : Prices
  /-- The greatest depth at which a call may be registered by a nested call. -/
  maxDepth : UInt32
  printDebug : Bool

namespace Host

/-- The version of the host's interface. -/
def version : String := "0.4.0"

/-- The host of a configuration, which has to make sense. -/
def ofConfig (capabilities : Capabilities) (config : Config) : Except ConfigError Host := do
  let config ← config.check
  .ok
    { capabilities
      prices := config.gas
      maxDepth := config.maxCallDepth
      printDebug := config.printDebug }

end Host

/-- What changes while calls come and go. -/
structure World where
  chain : Chain
  registry : Registry
  /-- The cursors of every call that has opened one, by the call's serial number. -/
  frames : Table Nat Frame
  cache : ModuleCache
  /-- The invocations that came from outside a running engine, with their calls. -/
  received : List (Invocation × Handle)
  /-- All runs of an engine. -/
  runs : List EngineRun

/-- A result with the gas it took; the gas counts on failure too. -/
abbrev Metered (α : Type) := Except HostError α × Report

namespace World

/-- A step on the world that may panic. -/
abbrev Action := ContractHost.Action World

/-- A step on the world that may refuse or panic. -/
abbrev Attempt := ContractHost.Attempt World HostError

/-- The world before anything happens. -/
def empty : World := ⟨.empty, .empty, .empty, .empty, [], []⟩

/-- An attempt on the chain as one on the world. -/
def onChain {α : Type} (step : Chain.Attempt HostError α) : Attempt α :=
  step.focus World.chain fun w c => { w with chain := c }

/-- An attempt on a store as one on the world. -/
def onStore {α : Type} (step : Store.Attempt α) : Attempt α :=
  onChain (step.mapError HostError.ofStore)

/-- The meter of a call. -/
def meterOf (w : World) (ctx : Context) : Meter := w.chain.meter ctx.binding.meter

/-- The cursors of a call. -/
def frameOf (w : World) (ctx : Context) : Frame := w.frames.getD ctx.serial []

/-- The world with the cursors of a call replaced. -/
def setFrame (w : World) (ctx : Context) (f : Frame) : World :=
  { w with frames := w.frames.set ctx.serial f }

/-- Charges gas on the meter of a call. -/
def charge (ctx : Context) (amount : UInt64) : Attempt Unit :=
  onChain (Chain.charge ctx.binding.meter amount)

/-- Registers a top-level call. -/
def register (w : World) (b : Binding) : Handle × World :=
  let r := w.registry.register b
  (r.1, { w with registry := r.2 })

/-- Registers a call below a context. -/
def registerChild (w : World) (parent : Context) (b : Binding) : Handle × World :=
  let r := w.registry.registerChild parent b
  (r.1, { w with registry := r.2 })

/-- Releases a call; a call that is not live is left as it is. -/
def release (w : World) (h : Handle) : World :=
  { w with registry := (w.registry.release h).2 }

/-- Serves a request of a live call and reports the gas its meter went up by. -/
def withContext {α : Type} (h : Handle) (serve : Context → Attempt α) : Action (Metered α) := do
  let w ← getThe World
  match w.registry.lookup h with
  | .error e => return (.error e, .free)
  | .ok ctx =>
    let before := (w.meterOf ctx).consumed
    let result ← (serve ctx).outcome
    let after := ((← getThe World).meterOf ctx).consumed
    return (result, .ofExternal (Word.sub after before))

/-- Runs something and releases a call afterwards, also after a panic. -/
def guarding {α : Type} (h : Handle) (run : Action α) : Action α :=
  run.ensuring fun w => w.release h

end World

end ContractHost
