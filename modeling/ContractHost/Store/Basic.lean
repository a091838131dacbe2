import ContractHost.Chain.Basic
import ContractHost.Store.Scope
import ContractHost.Text.Utf8

/-!
# Stores

A store is a way to reach records: a memory, a scope of another store, or another
store that can be out. Its operations act on the chain, where the records are.

## Main definitions

* `Store`: A way to reach records.
* `Store.get`, `Store.set`, `Store.delete`: Single records.
* `Store.range`, `Store.seek`: All records of a range, and its first one.
* `Store.base`: The memory that a store reaches in the end.
* `Store.ofContract`: The storage of a contract.
-/

namespace ContractHost

/-- A way to reach records. -/
inductive Store
  /-- All records of a memory. -/
  | memory (id : MemoryId)
  /-- The records of a store whose keys start with a prefix. -/
  | scope (pre : Bytes) (of : Store)
  /-- A store whose requests can be out, by the outages set at a place. -/
  | outages (place : Nat) (of : Store)

namespace Store

/-- An attempt of a store. -/
abbrev Attempt := Chain.Attempt StoreError

/-- The memory that a store reaches in the end. -/
def base : Store → MemoryId
  | memory id => id
  | scope _ of => of.base
  | outages _ of => of.base

/-- A request that can be out at a place. -/
def guarding {α : Type} (place : Nat) (q : StoreRequest) (call : Attempt α) : Attempt α :=
  Outage.guarding (fun c : Chain => c.storeOutages place q)
    (fun c o => c.setStoreOutage place q (some o)) call

/-- The value under a key. -/
def get : Store → (key : Bytes) → Attempt (Option Bytes)
  | memory id, key => do return ((← getThe Chain).memory id).get? key
  | scope pre of, key => of.get (pre ++ key)
  | outages place of, key => guarding place .get (of.get key)

/-- Writes a value under a key. -/
def set : Store → (key value : Bytes) → Attempt Unit
  | memory id, key, value =>
    modifyThe Chain fun c => c.setMemory id ((c.memory id).set key value)
  | scope pre of, key, value => of.set (pre ++ key) value
  | outages place of, key, value => guarding place .set (of.set key value)

/-- Removes the record under a key, if there is one. -/
def delete : Store → (key : Bytes) → Attempt Unit
  | memory id, key => modifyThe Chain fun c => c.setMemory id ((c.memory id).erase key)
  | scope pre of, key => of.delete (pre ++ key)
  | outages place of, key => guarding place .delete (of.delete key)

/-- The records of a range in the given order. -/
def range : Store → Range → Order → Attempt (List Record)
  | memory id, r, order => do
    Attempt.ofExcept (((← getThe Chain).memory id).range r order)
  | scope pre of, r, order => do
    Attempt.ofExcept r.check
    let found ← of.range (Scope.outer pre r) order
    return found.filterMap (Scope.inner? pre)
  | outages _ of, r, order => of.range r order

/-- The first record of a range in the given order. -/
def seek : Store → Range → Order → Attempt (Option Record)
  | memory id, r, order => do
    Attempt.ofExcept (((← getThe Chain).memory id).seek r order)
  | scope pre of, r, order => do
    Attempt.ofExcept r.check
    let found ← of.seek (Scope.outer pre r) order
    return found.bind (Scope.inner? pre)
  | outages place of, r, order => guarding place .seek (of.seek r order)

/-- The prefix of the keys of a contract's storage: its address and a slash. -/
def contractPrefix (address : String) : Bytes := Utf8.encode (address ++ "/")

/-- The storage of the contract at an address. -/
def ofContract (address : String) : Store :=
  scope (contractPrefix address) (memory Chain.contractMemory)

/-- The innermost scope of a stack of prefixes over a store, the outermost first. -/
def stack (prefixes : List Bytes) (base : Store) : Store :=
  prefixes.foldl (fun s pre => scope pre s) base

end Store

end ContractHost
