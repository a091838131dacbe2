import ContractHost.Bytes

/-!
# UTF-8

A byte string is cut into pieces by a machine that reads one byte at a time: a
piece is a character, a stretch that begins no character, or a character that the
end of the string cuts off. Strict decoding, the place of its first fault and
lossy decoding are three readings of the same list of pieces.

A stretch that begins no character is as long as the bytes that could still have
begun one, so a bad byte is looked at again as the start of the next piece.

## Main definitions

* `Utf8.encode`: The bytes of a text.
* `Utf8.Piece`, `Utf8.pieces`: What a byte string consists of.
* `Utf8.Fault`: Where and how a byte string stops being text.
* `Utf8.decode`: The text of a byte string, or its first fault.
* `Utf8.lossy`: The text with U+FFFD for every piece that is no character.
-/

namespace ContractHost

namespace Utf8

/-- The bytes of a list of characters. -/
def encodeChars (cs : List Char) : Bytes := cs.flatMap String.utf8EncodeChar

/-- The bytes of a text. -/
def encode (s : String) : Bytes := encodeChars s.toList

/-- What a byte string consists of. -/
inductive Piece
  /-- A well-formed character. -/
  | scalar (c : Char)
  /-- `width` bytes that begin no character. -/
  | stray (width : Nat)
  /-- `width` bytes of a character that the end of the string cuts off. -/
  | cut (width : Nat)

/-- A character of several bytes that is still being read. -/
structure Partial where
  /-- The bits read so far. -/
  bits : Nat
  /-- How many bytes are still to come, the next one included. -/
  missing : Nat
  /-- The least byte that may come next. -/
  low : UInt8
  /-- The greatest byte that may come next. -/
  high : UInt8
  /-- How many bytes have been read. -/
  taken : Nat

/-- What the first byte of a piece starts. The bounds on the second byte keep out
    overlong forms, surrogates and code points above U+10FFFF. -/
def start (b : UInt8) : List Piece × Option Partial :=
  if b < 0x80 then ([.scalar (Char.ofNat b.toNat)], none)
  else if b < 0xc2 then ([.stray 1], none)
  else if b < 0xe0 then ([], some ⟨b.toNat - 0xc0, 1, 0x80, 0xbf, 1⟩)
  else if b = 0xe0 then ([], some ⟨0, 2, 0xa0, 0xbf, 1⟩)
  else if b = 0xed then ([], some ⟨13, 2, 0x80, 0x9f, 1⟩)
  else if b < 0xf0 then ([], some ⟨b.toNat - 0xe0, 2, 0x80, 0xbf, 1⟩)
  else if b = 0xf0 then ([], some ⟨0, 3, 0x90, 0xbf, 1⟩)
  else if b < 0xf4 then ([], some ⟨b.toNat - 0xf0, 3, 0x80, 0xbf, 1⟩)
  else if b = 0xf4 then ([], some ⟨4, 3, 0x80, 0x8f, 1⟩)
  else ([.stray 1], none)

/-- The pieces that a byte completes, and the character it leaves open. -/
def advance (open? : Option Partial) (b : UInt8) : List Piece × Option Partial :=
  match open? with
  | none => start b
  | some p =>
    if p.low ≤ b ∧ b ≤ p.high then
      let bits := p.bits * 64 + (b.toNat - 0x80)
      if p.missing ≤ 1 then ([.scalar (Char.ofNat bits)], none)
      else ([], some ⟨bits, p.missing - 1, 0x80, 0xbf, p.taken + 1⟩)
    else
      let next := start b
      (.stray p.taken :: next.1, next.2)

/-- The pieces of a byte string that follows an open character. -/
def scan (open? : Option Partial) : Bytes → List Piece
  | [] =>
    match open? with
    | none => []
    | some p => [.cut p.taken]
  | b :: rest =>
    let next := advance open? b
    next.1 ++ scan next.2 rest

/-- The pieces of a byte string. -/
def pieces (b : Bytes) : List Piece := scan none b

/-- Where and how a byte string stops being text. -/
structure Fault where
  /-- How many bytes of text come before. -/
  index : Nat
  /-- The length of the stretch that begins no character, or none if the string
      ends inside a character. -/
  width : Option Nat

/-- The wording of a fault. -/
def Fault.message (f : Fault) : String :=
  match f.width with
  | some n => s!"invalid utf-8 sequence of {n} bytes from index {f.index}"
  | none => s!"incomplete utf-8 byte sequence from index {f.index}"

/-- The characters of a list of pieces that starts at byte `index`, if all of them
    are characters. -/
def chars (index : Nat) : List Piece → Except Fault (List Char)
  | [] => .ok []
  | .scalar c :: rest => (chars (index + c.utf8Size) rest).map (c :: ·)
  | .stray width :: _ => .error ⟨index, some width⟩
  | .cut _ :: _ => .error ⟨index, none⟩

/-- The text of a byte string, or its first fault. -/
def decode (b : Bytes) : Except Fault String :=
  (chars 0 (pieces b)).map String.ofList

/-- The text of a byte string, if it is one. -/
def decode? (b : Bytes) : Option String := (decode b).toOption

/-- The character a piece is shown as. -/
def Piece.shown : Piece → Char
  | .scalar c => c
  | .stray _ => '\uFFFD'
  | .cut _ => '\uFFFD'

/-- The text of a byte string, with U+FFFD for every piece that is no character. -/
def lossy (b : Bytes) : String := String.ofList ((pieces b).map Piece.shown)

end Utf8

end ContractHost
