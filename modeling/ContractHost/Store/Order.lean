import ContractHost.Bytes
import ContractHost.Error

/-!
# Orders and Ranges of Keys

A range holds the keys from its start up to and without its end; either bound may be
absent. A range that starts where it ends is empty, one that starts later is refused.

## Main definitions

* `Order`: Ascending or descending.
* `Order.ofInt`: The order of a number from outside.
* `Range`: Optional bounds on keys.
* `Range.check`: Refuses a range that starts after its end.
* `Range.holds`: Whether a key lies in a range.
* `Record`: A key with its value.
-/

namespace ContractHost

/-- The order in which records are handed out. -/
inductive Order
  | ascending
  | descending
deriving DecidableEq

namespace Order

/-- The number of an order. -/
def toInt : Order → Int
  | ascending => 1
  | descending => 2

/-- The order of a number from outside. -/
def ofInt (n : Int) : Except StoreError Order :=
  if n = 1 then .ok ascending else if n = 2 then .ok descending else .error (.invalidOrder n)

/-- The name of an order. -/
def text : Order → String
  | ascending => "ascending"
  | descending => "descending"

end Order

/-- A key with its value. -/
abbrev Record := Bytes × Bytes

/-- Optional bounds on keys: the start belongs to the range, the end does not. -/
structure Range where
  start : Option Bytes
  stop : Option Bytes
deriving DecidableEq

namespace Range

/-- Whether a range starts after its end. -/
def inverted (r : Range) : Bool :=
  match r.start, r.stop with
  | some start, some stop => stop < start
  | _, _ => false

/-- Refuses a range that starts after its end. -/
def check (r : Range) : Except StoreError Unit :=
  if r.inverted then .error .invalidRange else .ok ()

/-- Whether a key lies in a range. -/
def holds (r : Range) (key : Bytes) : Bool :=
  (match r.start with
    | some start => !(key < start : Bool)
    | none => true) &&
  match r.stop with
  | some stop => key < stop
  | none => true

end Range

end ContractHost
