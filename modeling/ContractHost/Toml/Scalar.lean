import ContractHost.Document.Node
import ContractHost.Toml.Lexical

/-!
# Numbers, Dates and Truth Values in TOML

Integers are signed 64-bit numbers, in four bases and with underscores between
digits. Fractions, dates and times are recognised, since a member nobody reads may
hold one, but only their form is kept: a fraction is a node of another kind, and a
date or time is a record of one private member, which is what a typed reader meets.

A fraction that rounds to positive infinity is refused, as is a date that no
calendar has.

## Main definitions

* `Toml.integer?`, `Toml.fraction?`: Numbers.
* `Toml.dateTime?`: Dates, times of day and both together.
* `Toml.scalar?`: Any of these, or a truth value.
-/

namespace ContractHost

namespace Toml

/-! ## Digits -/

/-- The digits after the first, where an underscore may stand before a digit. -/
def moreDigits? (isDigit : Char → Bool) : List Char → Option (List Char × List Char)
  | '_' :: c :: rest =>
    if isDigit c then cons? c (moreDigits? isDigit rest) else none
  | ['_'] => none
  | c :: rest => if isDigit c then cons? c (moreDigits? isDigit rest) else some ([], c :: rest)
  | [] => some ([], [])

/-- At least one digit, with underscores between digits. -/
def digits? (isDigit : Char → Bool) : List Char → Option (List Char × List Char)
  | c :: rest => if isDigit c then cons? c (moreDigits? isDigit rest) else none
  | [] => none

/-- A sign, which is negative or not, and what follows it. -/
def sign : List Char → Bool × List Char
  | '-' :: rest => (true, rest)
  | '+' :: rest => (false, rest)
  | cs => (false, cs)

/-- The digits of a decimal whole number, which begin with a zero only if they are
    one. -/
def wholeDigits? : List Char → Option (List Char × List Char)
  | '0' :: rest => some (['0'], rest)
  | cs => digits? Char.isDigit cs

/-- The number of a list of digits in a base. -/
def number (base : Nat) (digits : List Char) : Nat :=
  digits.foldl (fun n c => n * base + (hexDigit? c).getD 0) 0

/-! ## Integers -/

/-- An integer of the 64-bit range. -/
def ranged? (n : Int) (rest : List Char) : Option (Node × List Char) :=
  if Int64.minValue.toInt ≤ n ∧ n ≤ Int64.maxValue.toInt then some (.integer n, rest) else none

/-- An unsigned integer in a base other than ten, from behind its base mark. -/
def based? (base : Nat) (cs : List Char) : Option (Node × List Char) := do
  let isDigit := fun c => (hexDigit? c).any (· < base)
  let (ds, rest) ← digits? isDigit cs
  ranged? (number base ds) rest

/-- An integer. -/
def integer? : List Char → Option (Node × List Char)
  | '0' :: 'x' :: rest => based? 16 rest
  | '0' :: 'o' :: rest => based? 8 rest
  | '0' :: 'b' :: rest => based? 2 rest
  | cs => do
    let (negative, rest) := sign cs
    let (ds, rest) ← wholeDigits? rest
    let n := number 10 ds
    ranged? (if negative then -n else n) rest

/-! ## Fractions -/

/-- The least number that rounds to infinity as a 64-bit floating-point number: half a
    step above the largest finite one. -/
def infinity : Nat := 1 <<< 1024 - 1 <<< 970

/-- Whether `digits * 10 ^ scale` rounds to infinity. The two cheap answers come first,
    since the exponent may be a long numeral. -/
def rounds (digits : List Char) (scale : Int) : Bool :=
  let n := number 10 digits
  let magnitude := scale + (toString n).length
  if n = 0 ∨ magnitude < 308 then false
  else if 310 < magnitude then true
  else if 0 ≤ scale then infinity ≤ n * Nat.pow 10 scale.toNat
  else infinity * Nat.pow 10 scale.natAbs ≤ n

/-- An exponent from behind its mark. -/
def exponent? (cs : List Char) : Option (Int × List Char) := do
  let (negative, rest) := sign cs
  let (ds, rest) ← digits? Char.isDigit rest
  let n := number 10 ds
  some (if negative then -n else n, rest)

/-- What follows an optional exponent, with its number. -/
def optionalExponent? : List Char → Option (Int × List Char)
  | 'e' :: rest => exponent? rest
  | 'E' :: rest => exponent? rest
  | cs => some (0, cs)

/-- A number with a fraction, an exponent or both. -/
def fraction? (cs : List Char) : Option (Node × List Char) := do
  let (negative, rest) := sign cs
  let (whole, rest) ← wholeDigits? rest
  let (places, scale, rest) ← match rest with
    | '.' :: rest => do
      let (places, rest) ← digits? Char.isDigit rest
      let (scale, rest) ← optionalExponent? rest
      some (places, scale, rest)
    | 'e' :: rest => (exponent? rest).map fun (scale, rest) => ([], scale, rest)
    | 'E' :: rest => (exponent? rest).map fun (scale, rest) => ([], scale, rest)
    | _ => none
  if !negative && rounds (whole ++ places) (scale - places.length) then none
  else some (.other, rest)

/-- Infinity or not a number, with an optional sign. -/
def special? (cs : List Char) : Option (Node × List Char) :=
  match (sign cs).2 with
  | 'i' :: 'n' :: 'f' :: rest => some (.other, rest)
  | 'n' :: 'a' :: 'n' :: rest => some (.other, rest)
  | _ => none

/-! ## Dates and times -/

/-- A number of exactly `n` digits. -/
def fixed? (n : Nat) (cs : List Char) : Option (Nat × List Char) :=
  let (ds, rest) := cs.splitAt n
  if ds.length = n ∧ ds.all Char.isDigit then some (number 10 ds, rest) else none

/-- A number of two digits, up to `most`. -/
def two? (most : Nat) (cs : List Char) : Option (Nat × List Char) := do
  let (n, rest) ← fixed? 2 cs
  if n ≤ most then some (n, rest) else none

/-- What follows a character that has to stand at the front. -/
def expect? (c : Char) : List Char → Option (List Char)
  | d :: rest => if d = c then some rest else none
  | [] => none

/-- The number of days in a month of a year. -/
def daysIn (year month : Nat) : Nat :=
  if month = 2 then
    if year % 4 = 0 ∧ (year % 100 ≠ 0 ∨ year % 400 = 0) then 29 else 28
  else if month = 4 ∨ month = 6 ∨ month = 9 ∨ month = 11 then 30
  else 31

/-- What follows a date of the calendar. -/
def date? (cs : List Char) : Option (List Char) := do
  let (year, rest) ← fixed? 4 cs
  let (month, rest) ← two? 12 (← expect? '-' rest)
  let (day, rest) ← two? (daysIn year month) (← expect? '-' rest)
  if 1 ≤ month ∧ 1 ≤ day then some rest else none

/-- What follows a time of day; the second may be a leap second and have places. -/
def time? (cs : List Char) : Option (List Char) := do
  let (_, rest) ← two? 23 cs
  let (_, rest) ← two? 59 (← expect? ':' rest)
  let (_, rest) ← two? 60 (← expect? ':' rest)
  match rest with
  | '.' :: c :: more => if c.isDigit then some (more.dropWhile Char.isDigit) else some rest
  | _ => some rest

/-- What follows an optional offset from universal time. -/
def offset (cs : List Char) : List Char :=
  let shift (rest : List Char) : Option (List Char) := do
    let (_, rest) ← two? 23 rest
    let (_, rest) ← two? 59 (← expect? ':' rest)
    some rest
  match cs with
  | 'Z' :: rest => rest
  | 'z' :: rest => rest
  | '+' :: rest => (shift rest).getD cs
  | '-' :: rest => (shift rest).getD cs
  | _ => cs

/-- What follows a time of day behind a date, if there is one. -/
def timeOfDate (cs : List Char) : List Char :=
  match cs with
  | c :: rest =>
    if c = 'T' ∨ c = 't' ∨ c = ' ' then ((time? rest).map offset).getD cs else cs
  | [] => []

/-- A date or a time as a typed reader meets it. -/
def moment : Node := .object [("$__toml_private_datetime", .other)]

/-- A date, a time of day, or both. -/
def dateTime? (cs : List Char) : Option (Node × List Char) :=
  match date? cs with
  | some rest => some (moment, timeOfDate rest)
  | none => (time? cs).map (moment, ·)

/-! ## All scalars but strings -/

/-- A truth value, a date or time, or a number. -/
def scalar? : List Char → Option (Node × List Char)
  | 't' :: 'r' :: 'u' :: 'e' :: rest => some (.bool true, rest)
  | 'f' :: 'a' :: 'l' :: 's' :: 'e' :: rest => some (.bool false, rest)
  | cs => dateTime? cs <|> fraction? cs <|> special? cs <|> integer? cs

end Toml

end ContractHost
