import ContractHost.Call.Handle
import ContractHost.Query.Plan
import ContractHost.Store.Basic
import ContractHost.Text.Quoted

/-!
# Bindings and Contexts

A call is bound to what it may use: a store, a meter and a querier, and, as far as
they are known, the contract that runs and the address whose storage it runs on. The
two differ in a delegate call. A context is a binding at its place in the tree of
calls.

## Main definitions

* `Binding`: What a call may use.
* `Binding.withContract`, `Binding.withStoreAddress`: Bindings with an address.
* `Context`: A registered call.
-/

namespace ContractHost

/-- What a call may use. -/
structure Binding where
  store : Store
  meter : MeterId
  querier : Querier
  /-- The address of the contract that runs, if it is known. -/
  contractAddress : Option String
  /-- The address whose storage the store is, if it is known. -/
  storeAddress : Option String

namespace Binding

/-- A binding without addresses. -/
def new (store : Store) (meter : MeterId) (querier : Querier) : Binding :=
  ⟨store, meter, querier, none, none⟩

/-- The binding for a contract, which runs on its own storage unless another address
    has been given for that. -/
def withContract (b : Binding) (address : String) : Binding :=
  { b with
    storeAddress := some (b.storeAddress.getD address)
    contractAddress := some address }

/-- The binding with the address of the storage replaced. -/
def withStoreAddress (b : Binding) (address : String) : Binding :=
  { b with storeAddress := some address }

/-- A binding in the form of a diagnostic, with the gas charged on its meter. -/
def diagnostic (b : Binding) (consumed : UInt64) : String :=
  "CallBinding \x7b contract_address: " ++ Quoted.option b.contractAddress ++
    ", store_address: " ++ Quoted.option b.storeAddress ++
    s!", gas_consumed: {consumed}, .. \x7d"

end Binding

/-- A registered call. -/
structure Context where
  handle : Handle
  /-- The call that made this one. -/
  parent : Option Handle
  /-- How many calls lie above this one. -/
  depth : UInt32
  binding : Binding
  /-- How many calls had been registered before this one, whatever became of them.
      Unlike a handle it is never used again, and the call's cursors are kept by it. -/
  serial : Nat

namespace Context

/-- The depth of the calls that this one makes, or the greatest depth. -/
def childDepth (c : Context) : UInt32 :=
  if c.depth.toNat + 1 < UInt32.size then c.depth + 1 else c.depth

/-- A context in the form of a diagnostic. -/
def diagnostic (c : Context) (consumed : UInt64) : String :=
  let parent := match c.parent with
    | none => "None"
    | some p => "Some(" ++ p.diagnostic ++ ")"
  "InvocationContext \x7b handle: " ++ c.handle.diagnostic ++ ", parent: " ++ parent ++
    s!", depth: {c.depth}, binding: " ++ c.binding.diagnostic consumed ++ ", .. \x7d"

end Context

end ContractHost
