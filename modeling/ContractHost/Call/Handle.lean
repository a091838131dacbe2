import ContractHost.Table

/-!
# Call Handles

A call that is registered with the host has a handle, a word that is never zero. A
cursor is named by the handle of its call and its number within the call.

## Main definitions

* `Handle`: The name of a registered call.
* `CursorId`: The name of a cursor.
-/

namespace ContractHost

/-- The name of a registered call. -/
structure Handle where
  id : UInt64
deriving DecidableEq

namespace Handle

/-- The handle that no call has. -/
def none : Handle := ⟨0⟩

/-- Handles are ordered by their words. -/
instance : LT Handle := ⟨fun a b => a.id < b.id⟩

instance (a b : Handle) : Decidable (a < b) := inferInstanceAs (Decidable (a.id < b.id))

instance : DecidableLT Handle := fun a b => inferInstanceAs (Decidable (a.id < b.id))

instance : TotalKey Handle where
  irrefl h := UInt64.lt_irrefl h.id
  trans h k := UInt64.lt_trans h k
  connected {a b} h k := by
    have hid : a.id = b.id := TotalKey.connected (κ := UInt64) h k
    cases a
    cases b
    simpa using hid

/-- The name of a call as a user sees it. -/
def text (h : Handle) : String := s!"call#{h.id}"

/-- The name of a call in the form of a diagnostic. -/
def diagnostic (h : Handle) : String := s!"CallHandle({h.id})"

end Handle

/-- The name of a cursor. -/
structure CursorId where
  call : Handle
  number : UInt64
deriving DecidableEq

/-- The name of a cursor as a user sees it. -/
def CursorId.text (c : CursorId) : String := c.call.text ++ s!"/iter#{c.number}"

end ContractHost
