import ContractHost.Store.Order
import ContractHost.Table

/-!
# Records in Memory

An ordered table of records, with the two ways to read a range of it: all records at
once, or only the first in the given order.

## Main definitions

* `Records`: A table from keys to values.
* `Records.range`: The records of a range.
* `Records.seek`: The first record of a range.
-/

namespace ContractHost

/-- A table from keys to values. -/
abbrev Records := Table Bytes Bytes

namespace Records

/-- The records of a range in the given order. -/
def range (t : Records) (r : Range) (order : Order) : Except StoreError (List Record) := do
  r.check
  let found := t.entries.filter fun e => r.holds e.1
  return match order with
    | .ascending => found
    | .descending => found.reverse

/-- The first record of a range in the given order. -/
def seek (t : Records) (r : Range) (order : Order) : Except StoreError (Option Record) := do
  r.check
  return match order with
    | .ascending => t.entries.find? fun e => r.holds e.1
    | .descending => t.entries.reverse.find? fun e => r.holds e.1

end Records

end ContractHost
