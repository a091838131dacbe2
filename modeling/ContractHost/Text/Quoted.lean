import ContractHost.Text.Unprintable

/-!
# Quoted Text

Diagnostics show texts and characters in quotes. A backslash goes before the
backslash and before the quote in use, four control characters have names, and
every other unprintable character is given by its code point.

## Main definitions

* `Quoted.hex`: A number in lower-case hexadecimal digits, without padding.
* `Quoted.escape`: How a character stands between quotes.
* `Quoted.text`, `Quoted.char`: A text in double quotes, a character in single ones.
* `Quoted.option`: An optional text.
-/

namespace ContractHost

namespace Quoted

/-- A number in lower-case hexadecimal digits, without padding. -/
def hex (n : Nat) : String := String.ofList (Nat.toDigits 16 n)

/-- How `c` stands between two `quote` characters. -/
def escape (quote c : Char) : List Char :=
  if c = '\x00' then ['\\', '0']
  else if c = '\t' then ['\\', 't']
  else if c = '\r' then ['\\', 'r']
  else if c = '\n' then ['\\', 'n']
  else if c = '\\' ∨ c = quote then ['\\', c]
  else if Text.isUnprintable c then
    ['\\', 'u', '\x7b'] ++ Nat.toDigits 16 c.toNat ++ ['\x7d']
  else [c]

/-- A text in double quotes. -/
def text (s : String) : String :=
  String.ofList ('"' :: s.toList.flatMap (escape '"') ++ ['"'])

/-- A character in single quotes. -/
def char (c : Char) : String :=
  String.ofList ('\'' :: escape '\'' c ++ ['\''])

/-- An optional text, with `None` for an absent one. -/
def option : Option String → String
  | none => "None"
  | some s => "Some(" ++ text s ++ ")"

end Quoted

end ContractHost
