import ContractHost.Document.Node
import ContractHost.Text.Utf8

/-!
# JSON

Writing is compact: no blanks, members in the order of the record, and escapes only
for the quote, the backslash and the characters below U+0020. Reading is strict and
takes the whole input. It keeps no more of a value than a `Node` does, so a string
with unpaired surrogates or bytes that are no UTF-8 is read as garbled, and only a
reader of that string minds.

## Main definitions

* `Json.render`: The characters of a tree.
* `Json.text`, `Json.write`: The same as a text and as bytes.
* `Json.value`: Reads one value off the front of a byte string.
* `Json.read?`: Reads a byte string that holds exactly one value.
-/

namespace ContractHost

namespace Json

/-! ## Writing -/

/-- How a character stands inside a string. -/
def escape (c : Char) : List Char :=
  if c = '"' then ['\\', '"']
  else if c = '\\' then ['\\', '\\']
  else if c = '\n' then ['\\', 'n']
  else if c = '\r' then ['\\', 'r']
  else if c = '\t' then ['\\', 't']
  else if c = '\x08' then ['\\', 'b']
  else if c = '\x0c' then ['\\', 'f']
  else if c.toNat < 0x20 then
    ['\\', 'u', '0', '0', Nat.digitChar (c.toNat / 16), Nat.digitChar (c.toNat % 16)]
  else [c]

/-- A text in quotes. -/
def quote (s : String) : List Char := '"' :: s.toList.flatMap escape ++ ['"']

mutual

/-- The characters of a tree. A garbled string and a value of another kind cannot be
    written; nothing builds them, and they are shown as null. -/
def render : Node → List Char
  | .null => "null".toList
  | .bool true => "true".toList
  | .bool false => "false".toList
  | .integer n => (toString n).toList
  | .text s => quote s
  | .list [] => ['[', ']']
  | .list (item :: items) => '[' :: render item ++ renderItems items
  | .record [] => ['\x7b', '\x7d']
  | .record ((label, content) :: members) =>
    '\x7b' :: quote (label.getD "") ++ ':' :: render content ++ renderMembers members
  | .garbled => "null".toList
  | .other => "null".toList

/-- The rest of a list after its first item. -/
def renderItems : List Node → List Char
  | [] => [']']
  | item :: items => ',' :: render item ++ renderItems items

/-- The rest of a record after its first member. -/
def renderMembers : List (Option String × Node) → List Char
  | [] => ['\x7d']
  | (label, content) :: members =>
    ',' :: quote (label.getD "") ++ ':' :: render content ++ renderMembers members

end

/-- A tree as a text. -/
def text (n : Node) : String := String.ofList (render n)

/-- A tree as bytes. -/
def write (n : Node) : Bytes := Utf8.encodeChars (render n)

/-! ## Reading -/

/-- The bytes that may stand between tokens. -/
def isSpace (b : UInt8) : Bool := b = 0x20 || b = 0x09 || b = 0x0a || b = 0x0d

/-- What follows the blanks at the front. -/
def skip (b : Bytes) : Bytes := b.dropWhile isSpace

/-- One step of a string: a byte as it stands, or a code unit given by number. -/
inductive Mark
  | raw (b : UInt8)
  | unit (n : Nat)

/-- The byte that a one-letter escape stands for. -/
def shortEscape? (b : UInt8) : Option UInt8 :=
  if b = 0x22 ∨ b = 0x5c ∨ b = 0x2f then some b
  else if b = 0x62 then some 0x08
  else if b = 0x66 then some 0x0c
  else if b = 0x6e then some 0x0a
  else if b = 0x72 then some 0x0d
  else if b = 0x74 then some 0x09
  else none

/-- The number of a hexadecimal digit of either case. -/
def hexDigit? (b : UInt8) : Option Nat :=
  if 0x30 ≤ b ∧ b ≤ 0x39 then some (b.toNat - 0x30)
  else if 0x41 ≤ b ∧ b ≤ 0x46 then some (b.toNat - 0x37)
  else if 0x61 ≤ b ∧ b ≤ 0x66 then some (b.toNat - 0x57)
  else none

/-- The number of four hexadecimal digits. -/
def hexUnit? (p q r s : UInt8) : Option Nat := do
  some ((((← hexDigit? p) * 16 + (← hexDigit? q)) * 16 + (← hexDigit? r)) * 16 + (← hexDigit? s))

/-- A string from behind its opening quote to its closing one. Control characters
    and unknown escapes are refused even where nobody reads the string. -/
def marks : Bytes → Option (List Mark × Bytes)
  | [] => none
  | 0x22 :: rest => some ([], rest)
  | 0x5c :: 0x75 :: p :: q :: r :: s :: rest => do
    let n ← hexUnit? p q r s
    let (ms, rest) ← marks rest
    some (.unit n :: ms, rest)
  | 0x5c :: e :: rest => do
    let b ← shortEscape? e
    let (ms, rest) ← marks rest
    some (.raw b :: ms, rest)
  | b :: rest =>
    if b < 0x20 ∨ b = 0x5c then none
    else do
      let (ms, rest) ← marks rest
      some (.raw b :: ms, rest)

/-- The bytes of a string, if every surrogate is half of a pair. -/
def bytes? : List Mark → Option Bytes
  | [] => some []
  | .raw b :: ms => do some (b :: (← bytes? ms))
  | .unit hi :: .unit lo :: ms =>
    if 0xd800 ≤ hi ∧ hi < 0xdc00 then
      if 0xdc00 ≤ lo ∧ lo < 0xe000 then do
        let c := Char.ofNat ((hi - 0xd800) * 0x400 + (lo - 0xdc00) + 0x10000)
        some (String.utf8EncodeChar c ++ (← bytes? ms))
      else none
    else if 0xdc00 ≤ hi ∧ hi < 0xe000 then none
    else do some (String.utf8EncodeChar (Char.ofNat hi) ++ (← bytes? (.unit lo :: ms)))
  | .unit n :: ms =>
    if 0xd800 ≤ n ∧ n < 0xe000 then none
    else do some (String.utf8EncodeChar (Char.ofNat n) ++ (← bytes? ms))

/-- The text of a string, if it is one. -/
def textOf? (ms : List Mark) : Option String := (bytes? ms).bind Utf8.decode?

/-- Whether a byte is a decimal digit. -/
def isDigit (b : UInt8) : Bool := 0x30 ≤ b && b ≤ 0x39

/-- The number of a list of decimal digits. -/
def decimal (digits : Bytes) : Nat := digits.foldl (fun n d => n * 10 + (d.toNat - 0x30)) 0

/-- At least one digit, and what follows the digits. -/
def digits? (b : Bytes) : Option (Bytes × Bytes) :=
  let ds := b.takeWhile isDigit
  if ds.isEmpty then none else some (ds, b.dropWhile isDigit)

/-- The whole part of a number: a zero, or digits that do not begin with one. -/
def whole? : Bytes → Option (Bytes × Bytes)
  | 0x30 :: rest => some ([0x30], rest)
  | b => digits? b

/-- What follows an optional fraction, and whether there was one. -/
def fraction? : Bytes → Option (Bool × Bytes)
  | 0x2e :: rest => do some (true, (← digits? rest).2)
  | b => some (false, b)

/-- What follows an optional exponent, and whether there was one. -/
def exponent? : Bytes → Option (Bool × Bytes)
  | b@(e :: rest) =>
    if e = 0x65 ∨ e = 0x45 then do
      let rest := match rest with
        | s :: r => if s = 0x2b ∨ s = 0x2d then r else rest
        | [] => rest
      some (true, (← digits? rest).2)
    else some (false, b)
  | [] => some (false, [])

/-- A number without a sign: an integer if it has neither fraction nor exponent. -/
def unsigned? (b : Bytes) : Option (Option Nat × Bytes) := do
  let (ds, rest) ← whole? b
  let (broken, rest) ← fraction? rest
  let (scaled, rest) ← exponent? rest
  some (if broken ∨ scaled then none else some (decimal ds), rest)

/-- A number. Minus zero is no integer. -/
def number? : Bytes → Option (Node × Bytes)
  | 0x2d :: rest => do
    let (n, rest) ← unsigned? rest
    match n with
    | some (n + 1) => some (.integer (-(n + 1 : Nat)), rest)
    | _ => some (.other, rest)
  | b => do
    let (n, rest) ← unsigned? b
    match n with
    | some n => some (.integer n, rest)
    | none => some (.other, rest)

mutual

/-- Reads one value off the front of a byte string. Every call consumes a byte or
    is the only one before the next that does, which is what `fuel` counts. -/
def value : (fuel : Nat) → Bytes → Option (Node × Bytes)
  | 0, _ => none
  | fuel + 1, b =>
    match skip b with
    | 0x22 :: rest => do
      let (ms, rest) ← marks rest
      some (match textOf? ms with
        | some s => .text s
        | none => .garbled, rest)
    | 0x5b :: rest =>
      match skip rest with
      | 0x5d :: rest => some (.list [], rest)
      | rest => do
        let (ns, rest) ← items fuel rest
        some (.list ns, rest)
    | 0x7b :: rest =>
      match skip rest with
      | 0x7d :: rest => some (.record [], rest)
      | rest => do
        let (ms, rest) ← members fuel rest
        some (.record ms, rest)
    | 0x6e :: 0x75 :: 0x6c :: 0x6c :: rest => some (.null, rest)
    | 0x74 :: 0x72 :: 0x75 :: 0x65 :: rest => some (.bool true, rest)
    | 0x66 :: 0x61 :: 0x6c :: 0x73 :: 0x65 :: rest => some (.bool false, rest)
    | rest => number? rest

/-- The items of a list that is not empty, up to its closing bracket. -/
def items : (fuel : Nat) → Bytes → Option (List Node × Bytes)
  | 0, _ => none
  | fuel + 1, b => do
    let (n, rest) ← value fuel b
    match skip rest with
    | 0x2c :: rest => do
      let (ns, rest) ← items fuel rest
      some (n :: ns, rest)
    | 0x5d :: rest => some ([n], rest)
    | _ => none

/-- The members of a record that is not empty, up to its closing brace. -/
def members : (fuel : Nat) → Bytes → Option (List (Option String × Node) × Bytes)
  | 0, _ => none
  | fuel + 1, b =>
    match skip b with
    | 0x22 :: rest => do
      let (ms, rest) ← marks rest
      match skip rest with
      | 0x3a :: rest => do
        let (n, rest) ← value fuel rest
        match skip rest with
        | 0x2c :: rest => do
          let (others, rest) ← members fuel rest
          some ((textOf? ms, n) :: others, rest)
        | 0x7d :: rest => some ([(textOf? ms, n)], rest)
        | _ => none
      | _ => none
    | _ => none

end

/-- Reads a byte string that holds exactly one value. -/
def read? (b : Bytes) : Option Node := do
  let (n, rest) ← value (2 * b.length + 2) b
  if (skip rest).isEmpty then some n else none

end Json

end ContractHost
