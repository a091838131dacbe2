import ContractHost.Word

/-!
# Byte Strings

Keys, values, messages and code are lists of bytes. Their order is the
lexicographic order of lists, in which a string comes before its extensions.

## Main definitions

* `Bytes`: A byte string.
* `Bytes.size`: Its length as a word, which is what prices are computed from.
* `Bytes.rest?`: What follows a prefix.
* `Bytes.contains`: Whether one byte string occurs inside another.
-/

namespace ContractHost

/-- A byte string, ordered lexicographically. -/
abbrev Bytes := List UInt8

namespace Bytes

/-- The length as a word. No string in memory is longer than the largest word,
    so the clamp never shows. -/
def size (b : Bytes) : UInt64 := Word.clamp b.length

/-- What follows the prefix `pre` in `b`, if `b` starts with it. -/
def rest? : (pre b : Bytes) → Option Bytes
  | [], b => some b
  | _ :: _, [] => none
  | p :: pre, x :: b => if p = x then rest? pre b else none

/-- Whether `needle` occurs at some position of the byte string. -/
def contains (needle : Bytes) : Bytes → Bool
  | [] => needle.isEmpty
  | x :: b => (rest? needle (x :: b)).isSome || contains needle b

theorem rest?_append (pre b : Bytes) : rest? pre (pre ++ b) = some b := by
  induction pre with
  | nil => rfl
  | cons p pre ih => simp [rest?, ih]

theorem rest?_eq_some_iff {pre b r : Bytes} : rest? pre b = some r ↔ b = pre ++ r := by
  constructor
  · intro h
    induction pre generalizing b with
    | nil => simpa [rest?] using h
    | cons p pre ih =>
      cases b with
      | nil => simp [rest?] at h
      | cons x b =>
        by_cases hx : p = x
        · simp only [rest?, hx, if_true] at h
          simp [ih h, hx]
        · simp [rest?, hx] at h
  · rintro rfl
    exact rest?_append pre r

end Bytes

end ContractHost
