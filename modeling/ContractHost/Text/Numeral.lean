/-!
# Numerals

Decimal numerals as they are read from a text, and numbers written in hexadecimal
digits at a fixed width.

## Main definitions

* `Numeral.digits?`: The number of a list of decimal digits.
* `Numeral.unsigned?`: A numeral with an optional plus sign, below a bound.
* `Numeral.padded`: A number in lower-case hexadecimal digits, filled up with zeros.
-/

namespace ContractHost

namespace Numeral

/-- The number of a decimal digit. -/
def digit? (c : Char) : Option Nat :=
  if '0' ≤ c ∧ c ≤ '9' then some (c.toNat - 48) else none

/-- The number that a list of digits continues from `n`. -/
def continue? (n : Nat) : List Char → Option Nat
  | [] => some n
  | c :: rest => do continue? (n * 10 + (← digit? c)) rest

/-- The number of a list of decimal digits, at least one. -/
def digits? : List Char → Option Nat
  | [] => none
  | cs => continue? 0 cs

/-- A numeral of at least one digit after an optional plus sign, if its number is
    below `bound`. -/
def unsigned? (bound : Nat) (s : String) : Option Nat := do
  let n ← digits? <| match s.toList with
    | '+' :: rest => rest
    | cs => cs
  if n < bound then some n else none

/-- A number in lower-case hexadecimal digits, with zeros in front up to `width`. -/
def padded (width n : Nat) : String :=
  let ds := Nat.toDigits 16 n
  String.ofList (List.replicate (width - ds.length) '0' ++ ds)

end Numeral

end ContractHost
