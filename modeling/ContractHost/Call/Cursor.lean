import ContractHost.Store.Basic

/-!
# Cursors

A cursor walks through a range without reading ahead. Each step looks for the record
next to the last one handed out, as the store is then, and narrows the range to what
lies beyond it. A cursor that has met the end stays there.

## Main definitions

* `Cursor`: The range that is left, the order, and whether the end has been met.
* `Cursor.past`: The range beyond a key.
* `Cursor.step`: The next record of a store, and the cursor after it.
* `Frame`: The cursors of a call; the first has number one.
* `Frame.push`, `Frame.step`: Opens a cursor, and moves one.
-/

namespace ContractHost

/-- A walk through a range. -/
structure Cursor where
  /-- What is left of the range. -/
  range : Range
  order : Order
  /-- Whether the end has been met. -/
  exhausted : Bool
deriving DecidableEq

namespace Cursor

/-- The part of a range beyond a key. Upwards it starts at the least key after `key`,
    which is `key` with a zero byte behind it; downwards it ends before `key`. -/
def past (r : Range) (order : Order) (key : Bytes) : Range :=
  match order with
  | .ascending => { r with start := some (key ++ [0]) }
  | .descending => { r with stop := some key }

/-- The next record of a store, and the cursor after it. -/
def step (c : Cursor) (store : Store) : Store.Attempt (Option Record × Cursor) := do
  if c.exhausted then return (none, c)
  match ← store.seek c.range c.order with
  | some e => return (some e, { c with range := past c.range c.order e.1 })
  | none => return (none, { c with exhausted := true })

end Cursor

/-- The cursors of a call, in the order in which they were opened. -/
abbrev Frame := List Cursor

namespace Frame

/-- Opens a cursor; its number is how many there are then. -/
def push (f : Frame) (r : Range) (order : Order) : Frame × UInt64 :=
  (f ++ [⟨r, order, false⟩], Word.clamp (f.length + 1))

/-- The cursor of a number. -/
def cursor? (f : Frame) (number : UInt64) : Option Cursor :=
  if number = 0 then none else f[number.toNat - 1]?

/-- The frame with the cursor of a number replaced. -/
def replace (f : Frame) (number : UInt64) (c : Cursor) : Frame := f.set (number.toNat - 1) c

end Frame

end ContractHost
