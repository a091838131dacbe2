import ContractHost.Host.Basic

/-!
# Storage Requests

Reading, writing and walking through the store of a call. What a request costs before
it is served is known from its arguments; what is handed back is charged for on top.

Opening a cursor reads nothing, and a range that starts after its end is refused
before anything is charged.

## Main definitions

* `Host.get`, `Host.set`, `Host.delete`: Single records.
* `Host.scan`: Opens a cursor.
* `Host.move`, `Host.next`: Moves a cursor.
-/

namespace ContractHost

namespace Host

variable (host : Host)

/-- The value under a key of the call's store. -/
def get (call : Handle) (key : Bytes) : World.Action (Metered (Option Bytes)) :=
  World.withContext call fun ctx => do
    World.charge ctx (host.prices.read key.size)
    let value ← World.onStore (ctx.binding.store.get key)
    match value with
    | some v => World.charge ctx (host.prices.readOutput v.size)
    | none => pure ()
    return value

/-- Writes a value under a key of the call's store. -/
def set (call : Handle) (key value : Bytes) : World.Action (Metered Unit) :=
  World.withContext call fun ctx => do
    World.charge ctx (host.prices.write key.size value.size)
    World.onStore (ctx.binding.store.set key value)

/-- Removes the record under a key of the call's store. -/
def delete (call : Handle) (key : Bytes) : World.Action (Metered Unit) :=
  World.withContext call fun ctx => do
    World.charge ctx host.prices.delete
    World.onStore (ctx.binding.store.delete key)

/-- Opens a cursor over a range of the call's store. -/
def scan (call : Handle) (r : Range) (order : Order) : World.Action (Metered CursorId) :=
  World.withContext call fun ctx => do
    World.onStore (Attempt.ofExcept r.check)
    World.charge ctx host.prices.iterCreate
    let w ← getThe World
    let (frame, number) := (w.frameOf ctx).push r order
    MonadStateOf.set (w.setFrame ctx frame)
    return ⟨call, number⟩

/-- Moves a cursor of a call and returns the record it meets. -/
def move (ctx : Context) (number : UInt64) : World.Attempt (Option Record) := do
  -- A cursor that does not exist costs a step too.
  World.charge ctx host.prices.iterNext
  match ((← getThe World).frameOf ctx).cursor? number with
  | none => throw (.notFound s!"iterator {number}")
  | some c =>
    let (found, c) ← World.onStore (c.step ctx.binding.store)
    -- The cursor has moved on even if the record cannot be paid for.
    modifyThe World fun w => w.setFrame ctx ((w.frameOf ctx).replace number c)
    match found with
    | some (key, value) =>
      World.charge ctx (host.prices.readOutput (Word.add key.size value.size))
    | none => pure ()
    return found

/-- Moves a cursor and returns the record it meets. Meeting the end is no failure and
    costs a step. -/
def next (cursor : CursorId) : World.Action (Metered (Option Record)) :=
  World.withContext cursor.call fun ctx => host.move ctx cursor.number

end Host

end ContractHost
