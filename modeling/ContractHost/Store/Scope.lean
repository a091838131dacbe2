import ContractHost.Store.Order

/-!
# Scopes

A scope is the part of a store whose keys start with a prefix. Seen from inside, the
prefix is not there; a range of the scope is a range of the store, in which the
prefix goes before each bound and takes the place of an absent one.

## Main definitions

* `Scope.upper`: The least key above all keys with a prefix.
* `Scope.outer`: A range of the scope as a range of the store.
* `Scope.inner?`: A record of the store as a record of the scope.
-/

namespace ContractHost

namespace Scope

/-- The least key above all keys that start with the prefix: the prefix up to its
    last byte below 255, with that byte raised by one. There is none when every byte
    of the prefix is 255. -/
def upper : (pre : Bytes) → Option Bytes
  | [] => none
  | b :: pre =>
    match upper pre with
    | some stop => some (b :: stop)
    | none => if b < 255 then some [b + 1] else none

/-- A range of the scope as a range of the store. -/
def outer (pre : Bytes) (r : Range) : Range where
  start := some (pre ++ r.start.getD [])
  stop :=
    match r.stop with
    | some stop => some (pre ++ stop)
    | none => upper pre

/-- A record of the store as a record of the scope, if its key starts with the
    prefix. -/
def inner? (pre : Bytes) (e : Record) : Option Record :=
  (Bytes.rest? pre e.1).map (·, e.2)

end Scope

end ContractHost
