/-!
# The Lexical Level of TOML

Blanks, comments, line ends and the four kinds of string. Each function takes the
characters that are left and returns what remains behind the part it reads.

Inside strings of several lines a line end is one line feed, up to two quotes may
stand anywhere, also before the closing three, and a backslash at the end of a line
swallows the blanks and line ends after it.

## Main definitions

* `Toml.skipBlanks`, `Toml.gap`, `Toml.lineEnd?`: What stands between tokens.
* `Toml.basic?`, `Toml.literal?`: Strings of one line, behind their opening quote.
* `Toml.longBasic?`, `Toml.longLiteral?`: Strings of several lines, behind theirs.
* `Toml.string?`: A string of any kind.
* `Toml.key?`: A key, as the list of its parts.
-/

namespace ContractHost

namespace Toml

/-! ## Between tokens -/

/-- Whether a character is a blank within a line. -/
def isBlank (c : Char) : Bool := c = ' ' || c = '\t'

/-- Whether a character may stand in a comment: no control character but the tab. -/
def isPlain (c : Char) : Bool := c = '\t' || (0x20 ≤ c.toNat && c.toNat ≠ 0x7f)

/-- What follows the blanks at the front. -/
def skipBlanks (cs : List Char) : List Char := cs.dropWhile isBlank

/-- What follows blanks, comments and line ends at the front. -/
def gap (inComment : Bool) : List Char → List Char
  | [] => []
  | '\n' :: rest => gap false rest
  | '\r' :: '\n' :: rest => gap false rest
  | c :: rest =>
    if inComment then
      if isPlain c then gap true rest else c :: rest
    else if isBlank c then gap false rest
    else if c = '#' then gap true rest
    else c :: rest

/-- What follows a comment, if there is one at the front. -/
def skipComment : List Char → List Char
  | '#' :: rest => rest.dropWhile isPlain
  | cs => cs

/-- What follows a line end, where the end of the text is one. -/
def newline? : List Char → Option (List Char)
  | [] => some []
  | '\n' :: rest => some rest
  | '\r' :: '\n' :: rest => some rest
  | _ => none

/-- What follows the rest of a line that holds nothing more than a comment. -/
def lineEnd? (cs : List Char) : Option (List Char) := newline? (skipComment (skipBlanks cs))

/-! ## Strings -/

/-- The number of a hexadecimal digit of either case. -/
def hexDigit? (c : Char) : Option Nat :=
  if '0' ≤ c ∧ c ≤ '9' then some (c.toNat - 48)
  else if 'A' ≤ c ∧ c ≤ 'F' then some (c.toNat - 55)
  else if 'a' ≤ c ∧ c ≤ 'f' then some (c.toNat - 87)
  else none

/-- The number that hexadecimal digits continue from `n`. -/
def hexFrom? (n : Nat) : List Char → Option Nat
  | [] => some n
  | c :: rest => do hexFrom? (n * 16 + (← hexDigit? c)) rest

/-- The character of some hexadecimal digits, unless they name a surrogate or
    nothing. -/
def escaped? (digits : List Char) : Option Char := do
  let n ← hexFrom? 0 digits
  if n.isValidChar then some (Char.ofNat n) else none

/-- The character of a one-letter escape. -/
def shortEscape? (c : Char) : Option Char :=
  if c = '"' ∨ c = '\\' then some c
  else if c = 'b' then some '\x08'
  else if c = 'f' then some '\x0c'
  else if c = 'n' then some '\n'
  else if c = 'r' then some '\r'
  else if c = 't' then some '\t'
  else none

/-- A character in front of a string that is read on. -/
def cons? (c : Char) (r : Option (List Char × List Char)) : Option (List Char × List Char) :=
  r.map fun p => (c :: p.1, p.2)

/-- A string with escapes, from behind its opening quote. -/
def basic? : List Char → Option (List Char × List Char)
  | [] => none
  | '"' :: rest => some ([], rest)
  | '\\' :: 'u' :: a :: b :: c :: d :: rest => do cons? (← escaped? [a, b, c, d]) (basic? rest)
  | '\\' :: 'U' :: a :: b :: c :: d :: e :: f :: g :: h :: rest => do
    cons? (← escaped? [a, b, c, d, e, f, g, h]) (basic? rest)
  | '\\' :: c :: rest => do cons? (← shortEscape? c) (basic? rest)
  | c :: rest => if isPlain c ∧ c ≠ '\\' then cons? c (basic? rest) else none

/-- A string without escapes, from behind its opening quote. -/
def literal? : List Char → Option (List Char × List Char)
  | [] => none
  | '\'' :: rest => some ([], rest)
  | c :: rest => if isPlain c then cons? c (literal? rest) else none

/-- Where a string of several lines stands after a backslash at a line's end. -/
inductive Fold
  /-- Not after one. -/
  | none
  /-- Behind the backslash, before the line end. -/
  | opened
  /-- Behind the line end, where blanks and line ends do not count. -/
  | closed
deriving DecidableEq

/-- A string of several lines with escapes, from behind its opening quotes. -/
def longBasic? (fold : Fold) : List Char → Option (List Char × List Char)
  | [] => none
  | '\n' :: rest =>
    if fold = .none then cons? '\n' (longBasic? .none rest) else longBasic? .closed rest
  | '\r' :: '\n' :: rest =>
    if fold = .none then cons? '\n' (longBasic? .none rest) else longBasic? .closed rest
  | c :: rest =>
    if fold ≠ .none ∧ isBlank c then longBasic? fold rest
    else if fold = .opened then none
    else
      match c, rest with
      | '"', '"' :: '"' :: '"' :: '"' :: rest => some (['"', '"'], rest)
      | '"', '"' :: '"' :: '"' :: rest => some (['"'], rest)
      | '"', '"' :: '"' :: rest => some ([], rest)
      | '\\', 'u' :: a :: b :: c :: d :: rest => do
        cons? (← escaped? [a, b, c, d]) (longBasic? .none rest)
      | '\\', 'U' :: a :: b :: c :: d :: e :: f :: g :: h :: rest => do
        cons? (← escaped? [a, b, c, d, e, f, g, h]) (longBasic? .none rest)
      | '\\', c :: rest =>
        if isBlank c then longBasic? .opened rest
        else if c = '\n' then longBasic? .closed rest
        else if c = '\r' then
          match rest with
          | '\n' :: rest => longBasic? .closed rest
          | _ => none
        else do cons? (← shortEscape? c) (longBasic? .none rest)
      | '\\', [] => none
      | c, rest => if isPlain c then cons? c (longBasic? .none rest) else none

/-- A string of several lines without escapes, from behind its opening quotes. -/
def longLiteral? : List Char → Option (List Char × List Char)
  | [] => none
  | '\'' :: '\'' :: '\'' :: '\'' :: '\'' :: rest => some (['\'', '\''], rest)
  | '\'' :: '\'' :: '\'' :: '\'' :: rest => some (['\''], rest)
  | '\'' :: '\'' :: '\'' :: rest => some ([], rest)
  | '\n' :: rest => cons? '\n' (longLiteral? rest)
  | '\r' :: '\n' :: rest => cons? '\n' (longLiteral? rest)
  | c :: rest => if isPlain c then cons? c (longLiteral? rest) else none

/-- What follows one line end directly behind the opening quotes, where it does not
    count. -/
def skipNewline : List Char → List Char
  | '\n' :: rest => rest
  | '\r' :: '\n' :: rest => rest
  | cs => cs

/-- A string of any kind, from its opening quote. -/
def string? : List Char → Option (List Char × List Char)
  | '"' :: '"' :: '"' :: rest => longBasic? .none (skipNewline rest)
  | '"' :: rest => basic? rest
  | '\'' :: '\'' :: '\'' :: rest => longLiteral? (skipNewline rest)
  | '\'' :: rest => literal? rest
  | _ => none

/-! ## Keys -/

/-- Whether a character may stand in a key without quotes. -/
def isBare (c : Char) : Bool := c.isAlphanum || c = '_' || c = '-'

/-- One part of a key. -/
def keyPart? : List Char → Option (List Char × List Char)
  | '"' :: rest => basic? rest
  | '\'' :: rest => literal? rest
  | cs =>
    let part := cs.takeWhile isBare
    if part.isEmpty then none else some (part, cs.dropWhile isBare)

/-- The parts of a key with points between them; `fuel` bounds their number. -/
def keyParts? : (fuel : Nat) → List Char → Option (List String × List Char)
  | 0, _ => none
  | fuel + 1, cs => do
    let (part, rest) ← keyPart? (skipBlanks cs)
    match skipBlanks rest with
    | '.' :: rest => do
      let (parts, rest) ← keyParts? fuel rest
      some (String.ofList part :: parts, rest)
    | rest => some ([String.ofList part], rest)

/-- How many levels of nesting a document may have, in keys and in values. -/
def nestingLimit : Nat := 79

/-- A key with the blanks around it, as the list of its parts. -/
def key? (cs : List Char) : Option (List String × List Char) := keyParts? nestingLimit cs

end Toml

end ContractHost
