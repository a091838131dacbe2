import ContractHost.Chain.Ledger
import ContractHost.Gas.Meter
import ContractHost.Outage
import ContractHost.Store.Records

/-!
# The Chain behind the Host

Everything that calls share and that outlives them: the memories stores are kept in,
the meters, the ledger, the contract table, the answers to queries, and the outages
that are set. Calls refer to memories and meters by number, so two calls that share
one see each other's changes.

## Main definitions

* `Chain`: The shared state.
* `Chain.empty`: The state in which nothing has happened yet.
* `Chain.addMemory`, `Chain.addMeter`: New places, with their numbers.
* `Chain.charge`: Charges gas on a meter.
-/

namespace ContractHost

/-- The operations a host is asked for from outside. -/
inductive Capability
  | canonicalize
  | humanize
  | resolveCall
  | transfer
  | createContract
deriving DecidableEq

/-- The requests to a store that can be out. -/
inductive StoreRequest
  | get
  | set
  | delete
  | seek
deriving DecidableEq

/-- The number of a memory. -/
abbrev MemoryId := Nat

/-- The number of a meter. -/
abbrev MeterId := Nat

/-- Everything that calls share and that outlives them. -/
structure Chain where
  /-- The memories stores are kept in. -/
  memories : Table MemoryId Records
  /-- The meters. -/
  meters : Table MeterId Meter
  /-- The balances. -/
  ledger : Ledger
  /-- The code identifier of every contract, by address. -/
  contracts : Table String Bytes
  /-- How many contracts have been created by contracts. -/
  created : UInt64
  /-- The answers to queries, by request. -/
  answers : Table Bytes Bytes
  /-- The outages of capabilities. -/
  capabilityOutages : Capability → Option (Outage HostError)
  /-- The outages of stores, by the number of the place they are set at. -/
  storeOutages : Nat → StoreRequest → Option (Outage StoreError)

namespace Chain

/-- The number of the memory in which all contracts keep their storage. -/
def contractMemory : MemoryId := 0

/-- The state in which nothing has happened yet: one empty memory for contracts. -/
def empty : Chain where
  memories := Table.empty.set contractMemory .empty
  meters := .empty
  ledger := .empty
  contracts := .empty
  created := 0
  answers := .empty
  capabilityOutages _ := none
  storeOutages _ _ := none

/-- The records of a memory. -/
def memory (c : Chain) (id : MemoryId) : Records := c.memories.getD id .empty

/-- The chain with the records of a memory replaced. -/
def setMemory (c : Chain) (id : MemoryId) (t : Records) : Chain :=
  { c with memories := c.memories.set id t }

/-- The meter of a number. -/
def meter (c : Chain) (id : MeterId) : Meter := c.meters.getD id (.new none)

/-- The chain with a meter replaced. -/
def setMeter (c : Chain) (id : MeterId) (m : Meter) : Chain :=
  { c with meters := c.meters.set id m }

/-- A new memory with its number. -/
def addMemory (c : Chain) (t : Records) : MemoryId × Chain :=
  (c.memories.fresh, c.setMemory c.memories.fresh t)

/-- A new meter with its number. -/
def addMeter (c : Chain) (m : Meter) : MeterId × Chain :=
  (c.meters.fresh, c.setMeter c.meters.fresh m)

/-- Sets or lifts the outage of a capability. -/
def setOutage (c : Chain) (k : Capability) (o : Option (Outage HostError)) : Chain :=
  { c with capabilityOutages := fun k' => if k' = k then o else c.capabilityOutages k' }

/-- Sets or lifts the outage of a request at one of the places for stores. -/
def setStoreOutage (c : Chain) (place : Nat) (q : StoreRequest)
    (o : Option (Outage StoreError)) : Chain :=
  { c with
    storeOutages := fun p r => if p = place ∧ r = q then o else c.storeOutages p r }

/-- An attempt that may change the chain. -/
abbrev Attempt (ε : Type) := ContractHost.Attempt Chain ε

/-- Charges gas on a meter. -/
def charge (id : MeterId) (amount : UInt64) : Chain.Attempt HostError Unit := do
  let c ← getThe Chain
  let (verdict, after) := (c.meter id).charge amount
  set (c.setMeter id after)
  Attempt.ofExcept verdict

end Chain

end ContractHost
