import ContractHost.Bytes

/-!
# Views and Buffers

Byte strings cross the boundary to a native engine in two shapes. A view lends one: it
is absent, or a pointer with a length. A buffer hands one over: it is absent, or holds
the bytes. Absent and empty are not the same.

## Main definitions

* `View`: Bytes lent across the boundary.
* `View.length`, `View.read`: The declared length, and the bytes that can be read.
* `Buffer`: Bytes handed over.
* `Buffer.copy`: The buffer of a foreign pointer and length.
-/

namespace ContractHost

/-- Bytes lent across the boundary. -/
structure View where
  /-- Whether the view is absent, whatever else it says. -/
  isNil : Bool
  /-- The bytes in memory from the pointer on, or none if the pointer is null. -/
  pointer : Option Bytes
  /-- How many bytes the view says there are. -/
  declared : UInt64

namespace View

/-- The absent view. -/
def nil : View := ⟨true, none, 0⟩

/-- The view of a byte string. -/
def ofBytes (b : Bytes) : View := ⟨false, some b, b.size⟩

/-- The view of a byte string, absent if there is none. -/
def ofOption : Option Bytes → View
  | none => nil
  | some b => ofBytes b

/-- A view with a length but a null pointer. -/
def dangling (length : UInt64) : View := ⟨false, none, length⟩

/-- The declared length; an absent view has none. -/
def length (v : View) : UInt64 := if v.isNil then 0 else v.declared

/-- Whether the declared length is zero. -/
def isEmpty (v : View) : Bool := v.length = 0

/-- The bytes that can be read. A null pointer is not followed: behind it are no
    bytes, whatever length is declared. -/
def read (v : View) : Option Bytes :=
  if v.isNil then none
  else
    match v.pointer with
    | none => some []
    | some b => some (b.take v.declared.toNat)

end View

/-- Bytes handed over. -/
structure Buffer where
  content : Option Bytes
deriving DecidableEq

namespace Buffer

/-- The absent buffer. -/
def none : Buffer := ⟨Option.none⟩

/-- A buffer that holds bytes. -/
def some (b : Bytes) : Buffer := ⟨Option.some b⟩

/-- Whether the buffer holds no bytes, not even zero of them. -/
def isNone (b : Buffer) : Bool := b.content.isNone

/-- How many bytes the buffer holds. -/
def length (b : Buffer) : Nat :=
  match b.content with
  | Option.none => 0
  | Option.some bytes => bytes.length

/-- The buffer with the bytes a foreign view describes. A null pointer with a length
    describes none, so the buffer is absent rather than silently emptied. -/
def copy (v : View) : Buffer :=
  if v.isNil then none
  else
    match v.pointer with
    | Option.none => if v.declared = 0 then some [] else none
    | Option.some b => some (b.take v.declared.toNat)

end Buffer

end ContractHost
