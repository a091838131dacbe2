import ContractHost.Call.Binding

/-!
# The Registry

The registry keeps the calls that are live and counts, for each live call, its live
children. Handles are given out by a counter that leaves out zero and every handle
that is still live, so it may wrap.

A released call does not take its children with it. They stay registered, but a
released parent is no longer counted for.

## Main definitions

* `Registry`: The live calls, the counts and the counter.
* `Registry.allocate`: The next free handle.
* `Registry.register`, `Registry.registerChild`: New calls.
* `Registry.lookup`: The context of a live call.
* `Registry.release`: Takes a call out.
* `Registry.childCount`, `Registry.childrenOf`: The children of a call.
-/

namespace ContractHost

/-- The live calls. -/
structure Registry where
  /-- Where the search for a free handle begins. -/
  next : UInt64
  /-- The live calls. -/
  calls : Table Handle Context
  /-- How many live children a live call has, if it has any. -/
  children : Table Handle Nat
  /-- How many calls have been registered so far. -/
  issued : Nat

namespace Registry

/-- The registry of a host that has served no call. -/
def empty : Registry := ⟨1, .empty, .empty, 0⟩

/-- The word after `id` in the cycle of the words other than zero. -/
def successor (id : UInt64) : UInt64 := if id + 1 = 0 then 1 else id + 1

/-- The first word from `id` on that is no live handle. At most `tries` live handles
    are passed over. -/
def search (calls : Table Handle Context) : (tries : Nat) → (id : UInt64) → UInt64
  | 0, id => id
  | tries + 1, id =>
    if calls.contains ⟨id⟩ then search calls tries (successor id) else id

/-- The next free handle, and the registry that goes on after it. Every live handle
    is passed over at most once, so as many tries as there are live calls suffice. -/
def allocate (r : Registry) : Handle × Registry :=
  let id := search r.calls r.calls.size r.next
  (⟨id⟩, { r with next := successor id })

/-- Counts one more live child for a live call. -/
def countChild (r : Registry) (parent : Handle) : Registry :=
  if r.calls.contains parent then
    { r with children := r.children.set parent (r.children.getD parent 0 + 1) }
  else r

/-- Counts one live child less for a call, if any is counted. -/
def forgetChild (r : Registry) (parent : Handle) : Registry :=
  match r.children.get? parent with
  | none => r
  | some n =>
    { r with
      children := if n ≤ 1 then r.children.erase parent else r.children.set parent (n - 1) }

/-- Registers a call at its place in the tree of calls. -/
def insert (r : Registry) (b : Binding) (parent : Option Handle) (depth : UInt32) :
    Handle × Registry :=
  let (handle, r) := r.allocate
  let context : Context := ⟨handle, parent, depth, b, r.issued⟩
  let r := { r with calls := r.calls.set handle context, issued := r.issued + 1 }
  match parent with
  | none => (handle, r)
  | some parent => (handle, r.countChild parent)

/-- Registers a top-level call. -/
def register (r : Registry) (b : Binding) : Handle × Registry := r.insert b none 0

/-- Registers a call one level below a context, which need not be live any more. -/
def registerChild (r : Registry) (parent : Context) (b : Binding) : Handle × Registry :=
  r.insert b (some parent.handle) parent.childDepth

/-- The context of a live call. -/
def lookup (r : Registry) (h : Handle) : Except HostError Context :=
  match r.calls.get? h with
  | some c => .ok c
  | none => .error (.notFound h.text)

/-- Takes a call out of the registry, and tells whether it was live. -/
def release (r : Registry) (h : Handle) : Bool × Registry :=
  match r.calls.get? h with
  | none => (false, r)
  | some c =>
    -- The parent loses a child first, then the call's own count goes with it.
    let r := { r with calls := r.calls.erase h }
    let r := match c.parent with
      | none => r
      | some parent => r.forgetChild parent
    (true, { r with children := r.children.erase h })

/-- How many live children are counted for a call. -/
def childCount (r : Registry) (h : Handle) : Nat := r.children.getD h 0

/-- The live calls whose parent is `h`, in ascending order. -/
def childrenOf (r : Registry) (h : Handle) : List Handle :=
  (r.calls.values.filter fun c => c.parent = some h).map (·.handle)

/-- How many calls are live. -/
def size (r : Registry) : Nat := r.calls.size

end Registry

end ContractHost
