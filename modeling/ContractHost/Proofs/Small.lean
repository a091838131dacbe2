import ContractHost.Host.Engine
import ContractHost.Host.InMemory
import ContractHost.Proofs.Registry.Consistency
import ContractHost.Script.Op

/-!
# A Small Host

Statements about all hosts and worlds are worth nothing if their conditions cannot be met.
This file sets up a host on capabilities in memory and a world in which one contract exists
and one call of it is live, so that statements can be applied to something.

## Main definitions

* `Host.small`, `World.small`: The host and its world.
* `World.limited`: The world in which gas may run out.
* `Binding.other`, `World.pair`: Another contract, and the world with a call of each.
* `Binding.small`, `Context.small`: What the call is bound to, and the call.
* `Host.Request.executing`: What an entry point is handed to run a script.

## Theorems

* `World.reached_small`, `World.lookup_small` and so on: The calls are live in registries that
  arise.
-/

namespace ContractHost

/-- A host on capabilities in memory, at standard prices. -/
def Host.small : Host := ⟨.inMemory (.answering 1), .standard, 8, false⟩

/-- What an entry point is handed to run a script. -/
def Host.Request.executing (ops : List Op) (gasLimit : UInt64) : Host.Request :=
  ⟨.execute, .ofCode [], [], [], Script.encode ops, gasLimit⟩

/-- A binding to the storage of a contract and a meter without a limit. -/
def Binding.small : Binding :=
  (Binding.new (.ofContract "a") 0 (.answering 1)).withContract "a"

/-- The call of the contract. -/
def Context.small : Context := ⟨⟨1⟩, none, 0, .small, 0⟩

/-- A world with the contract, in which a call of it is live. -/
def World.small : World :=
  (World.register
    { World.empty with
      chain := Chain.empty.registerContract "a" (List.replicate Checksum.size 0) } .small).2

/-- The same world, in which the meter has a limit. -/
def World.limited (limit : UInt64) : World :=
  { World.small with chain := World.small.chain.setMeter 0 (.new (some limit)) }

/-- A binding to the storage of another contract and a meter of its own. -/
def Binding.other : Binding :=
  (Binding.new (.ofContract "b") 1 (.answering 1)).withContract "b"

/-- The world with the other contract besides, and a call of it. -/
def World.pair : World :=
  (World.register
    { World.small with
      chain := World.small.chain.registerContract "b" (List.replicate Checksum.size 0) } .other).2

/-- One call has been registered, in an empty registry. -/
theorem World.reached_small : World.small.registry.Reached := .register .small .empty

theorem World.lookup_small :
    World.small.registry.lookup ⟨1⟩ = .ok ⟨⟨1⟩, none, 0, .small, 0⟩ := rfl

theorem World.reached_pair : World.pair.registry.Reached :=
  .register .other (.register .small .empty)

/-- The first call is still live beside the other one. -/
theorem World.lookup_pair_small :
    World.pair.registry.lookup ⟨1⟩ = .ok ⟨⟨1⟩, none, 0, .small, 0⟩ := rfl

theorem World.lookup_pair_other :
    World.pair.registry.lookup ⟨2⟩ = .ok ⟨⟨2⟩, none, 0, .other, 1⟩ := rfl

end ContractHost
