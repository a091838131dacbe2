import ContractHost.Bytes

/-!
# Base64

Three bytes are written as four digits of six bits, and a shorter rest is filled up
with `=`. Reading is strict: the fill has to be exact and the bits it leaves unused
have to be zero, so that a byte string has one written form.

## Main definitions

* `Base64.encode`: The written form of a byte string.
* `Base64.decode?`: The byte string of a written form.
-/

namespace ContractHost

namespace Base64

/-- The digit for a number below sixty-four. -/
def digit (n : Nat) : Char :=
  if n < 26 then Char.ofNat (65 + n)
  else if n < 52 then Char.ofNat (71 + n)
  else if n < 62 then Char.ofNat (n - 4)
  else if n = 62 then '+' else '/'

/-- The number for a digit. -/
def value? (c : Char) : Option Nat :=
  if 65 ≤ c.toNat ∧ c.toNat ≤ 90 then some (c.toNat - 65)
  else if 97 ≤ c.toNat ∧ c.toNat ≤ 122 then some (c.toNat - 71)
  else if 48 ≤ c.toNat ∧ c.toNat ≤ 57 then some (c.toNat + 4)
  else if c = '+' then some 62
  else if c = '/' then some 63
  else none

/-- The digits of a byte string, as characters. -/
def digits : Bytes → List Char
  | [] => []
  | [a] =>
    let n := a.toNat * 16
    [digit (n / 64), digit (n % 64), '=', '=']
  | [a, b] =>
    let n := (a.toNat * 256 + b.toNat) * 4
    [digit (n / 4096), digit (n / 64 % 64), digit (n % 64), '=']
  | a :: b :: c :: rest =>
    let n := (a.toNat * 256 + b.toNat) * 256 + c.toNat
    digit (n / 262144) :: digit (n / 4096 % 64) :: digit (n / 64 % 64) :: digit (n % 64) ::
      digits rest

/-- The written form of a byte string. -/
def encode (b : Bytes) : String := String.ofList (digits b)

/-- One byte from two digits, if the four unused bits are zero. -/
def lastByte? (p q : Char) : Option Bytes := do
  let n := (← value? p) * 64 + (← value? q)
  if n % 16 = 0 then some [UInt8.ofNat (n / 16)] else none

/-- Two bytes from three digits, if the two unused bits are zero. -/
def lastTwo? (p q r : Char) : Option Bytes := do
  let n := ((← value? p) * 64 + (← value? q)) * 64 + (← value? r)
  if n % 4 = 0 then some [UInt8.ofNat (n / 1024), UInt8.ofNat (n / 4 % 256)] else none

/-- Three bytes from four digits. -/
def three? (p q r s : Char) : Option Bytes := do
  let n := (((← value? p) * 64 + (← value? q)) * 64 + (← value? r)) * 64 + (← value? s)
  some [UInt8.ofNat (n / 65536), UInt8.ofNat (n / 256 % 256), UInt8.ofNat (n % 256)]

/-- The byte string of a list of digits; only the last four may hold fill. -/
def ofDigits? : List Char → Option Bytes
  | [] => some []
  | p :: q :: r :: s :: rest =>
    if s = '=' then
      if rest.isEmpty then
        if r = '=' then lastByte? p q else lastTwo? p q r
      else none
    else do
      let front ← three? p q r s
      let back ← ofDigits? rest
      some (front ++ back)
  | _ => none

/-- The byte string of a written form, or none if the form is not exact. -/
def decode? (s : String) : Option Bytes := ofDigits? s.toList

end Base64

end ContractHost
