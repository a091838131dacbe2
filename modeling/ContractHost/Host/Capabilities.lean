import ContractHost.Call.Binding
import ContractHost.Chain.Creation

/-!
# Host Capabilities

What a host can do for a running contract besides storage and queries. Each operation
is given the context of the call that asks, so that it can charge the call's meter;
it acts on the chain and cannot reach the registry of calls.

A set of capabilities may be put together operation by operation, and is only usable
when none is missing.

## Main definitions

* `Capabilities`: The five operations.
* `Resolution`: What a contract address stands for.
* `Capabilities.withOutages`: Operations that can be out.
* `CapabilityDraft`: Operations some of which may be missing.
* `CapabilityDraft.complete`, `CapabilityDraft.build`: The set of a draft.
-/

namespace ContractHost

/-- What a contract address stands for: a code identifier of any length, and what a
    call of the contract is bound to. -/
structure Resolution where
  code : Bytes
  binding : Binding

/-- The operations a host can do for a running contract. -/
structure Capabilities where
  /-- The canonical form of an address that people use. -/
  canonicalize : Context → (human : String) → Chain.Attempt HostError Bytes
  /-- The form that people use of a canonical address. -/
  humanize : Context → (canonical : Bytes) → Chain.Attempt HostError String
  /-- What a contract address stands for when its code runs on the storage of another
      address, or its own. -/
  resolveCall : Context → (contract store : String) → Chain.Attempt HostError Resolution
  /-- Moves coins from `payer` to `receiver`. -/
  transfer : Context → (receiver payer : String) → List Coin → Chain.Attempt HostError Unit
  /-- Creates a contract and returns its address. -/
  createContract : Context → CreateRequest → (gasLimit : UInt64) → Chain.Attempt HostError String

/-- A call of a capability that can be out. -/
def Capability.guarding {α : Type} (k : Capability) (call : Chain.Attempt HostError α) :
    Chain.Attempt HostError α :=
  Outage.guarding (fun c : Chain => c.capabilityOutages k)
    (fun c o => c.setOutage k (some o)) call

namespace Capabilities

/-- The same operations, each of which can be out. -/
def withOutages (c : Capabilities) : Capabilities where
  canonicalize ctx human := Capability.canonicalize.guarding (c.canonicalize ctx human)
  humanize ctx canonical := Capability.humanize.guarding (c.humanize ctx canonical)
  resolveCall ctx contract store :=
    Capability.resolveCall.guarding (c.resolveCall ctx contract store)
  transfer ctx receiver payer coins :=
    Capability.transfer.guarding (c.transfer ctx receiver payer coins)
  createContract ctx request gasLimit :=
    Capability.createContract.guarding (c.createContract ctx request gasLimit)

end Capabilities

/-- Operations some of which may be missing. -/
structure CapabilityDraft where
  canonicalize : Option (Context → String → Chain.Attempt HostError Bytes)
  humanize : Option (Context → Bytes → Chain.Attempt HostError String)
  resolveCall : Option (Context → String → String → Chain.Attempt HostError Resolution)
  transfer : Option (Context → String → String → List Coin → Chain.Attempt HostError Unit)
  createContract : Option (Context → CreateRequest → UInt64 → Chain.Attempt HostError String)

namespace Capability

/-- The name of a capability. -/
def name : Capability → String
  | canonicalize => "canonicalize"
  | humanize => "humanize"
  | resolveCall => "resolve_call"
  | transfer => "transfer"
  | createContract => "create_contract"

/-- The complaint about a capability that is missing. -/
def missingText (k : Capability) : String :=
  "host capability '" ++ k.name ++ "' is not configured"

end Capability

namespace CapabilityDraft

/-- The draft without operations. -/
def empty : CapabilityDraft := ⟨none, none, none, none, none⟩

/-- The draft with one operation taken from a set. -/
def add (d : CapabilityDraft) (c : Capabilities) : Capability → CapabilityDraft
  | .canonicalize => { d with canonicalize := some c.canonicalize }
  | .humanize => { d with humanize := some c.humanize }
  | .resolveCall => { d with resolveCall := some c.resolveCall }
  | .transfer => { d with transfer := some c.transfer }
  | .createContract => { d with createContract := some c.createContract }

/-- An operation, or the capability that is missing. -/
def required {α : Type} (k : Capability) : Option α → Except Capability α
  | some f => .ok f
  | none => .error k

/-- The set of a draft, or the first capability that is missing. -/
def complete (d : CapabilityDraft) : Except Capability Capabilities := do
  let canonicalize ← required .canonicalize d.canonicalize
  let humanize ← required .humanize d.humanize
  let resolveCall ← required .resolveCall d.resolveCall
  let transfer ← required .transfer d.transfer
  let createContract ← required .createContract d.createContract
  return { canonicalize, humanize, resolveCall, transfer, createContract }

/-- The set of a draft. A host that cannot serve every request must not start, so a
    missing capability is a panic. -/
def build (d : CapabilityDraft) : Except Panic Capabilities :=
  d.complete.mapError fun k => ⟨k.missingText⟩

end CapabilityDraft

end ContractHost
