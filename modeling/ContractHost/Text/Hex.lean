import ContractHost.Bytes
import ContractHost.Text.Quoted

/-!
# Hexadecimal Text

Two digits stand for one byte, the high half first. Writing uses lower-case digits;
reading takes either case. An odd number of digits is refused before any digit is
looked at, and then the first character that is no digit is named.

## Main definitions

* `Hex.encode`: The digits of a byte string.
* `Hex.Fault`: Why a text stands for no byte string.
* `Hex.decode`: The byte string of some digits, or the fault.
-/

namespace ContractHost

namespace Hex

/-- The digit for a number below sixteen. -/
def digit (n : Nat) : Char :=
  if n < 10 then Char.ofNat (48 + n) else Char.ofNat (87 + n)

/-- The digits of a byte string, as characters. -/
def digits : Bytes → List Char
  | [] => []
  | b :: rest => digit (b.toNat / 16) :: digit (b.toNat % 16) :: digits rest

/-- The digits of a byte string. -/
def encode (b : Bytes) : String := String.ofList (digits b)

/-- The number for a digit of either case, given as its ASCII byte. -/
def value? (b : UInt8) : Option Nat :=
  if 48 ≤ b ∧ b ≤ 57 then some (b.toNat - 48)
  else if 65 ≤ b ∧ b ≤ 70 then some (b.toNat - 55)
  else if 97 ≤ b ∧ b ≤ 102 then some (b.toNat - 87)
  else none

/-- Why a text stands for no byte string. -/
inductive Fault
  | oddLength
  | badDigit (byte : UInt8) (index : Nat)

/-- The wording of a fault. A bad byte is shown as the character of its number. -/
def Fault.message : Fault → String
  | .oddLength => "Odd number of digits"
  | .badDigit byte index =>
    "Invalid character " ++ Quoted.char (Char.ofNat byte.toNat) ++ s!" at position {index}"

/-- The byte string of pairs of digits, the first of them at `index`. -/
def pairs (index : Nat) : Bytes → Except Fault Bytes
  | hi :: lo :: rest =>
    match value? hi, value? lo with
    | none, _ => .error (.badDigit hi index)
    | some _, none => .error (.badDigit lo (index + 1))
    | some h, some l => (pairs (index + 2) rest).map (UInt8.ofNat (h * 16 + l) :: ·)
  | _ => .ok []

/-- The byte string that the bytes of a text stand for. -/
def decode (text : Bytes) : Except Fault Bytes :=
  if text.length % 2 = 1 then .error .oddLength else pairs 0 text

end Hex

end ContractHost
