import ContractHost.Document.Json
import ContractHost.Proofs.Text.Utf8

/-!
# JSON Read Back

A tree is read back from what is written for it. Writing and reading are built alike, so the
proof follows the tree; what is left are the places where the two differ in how they look at the
bytes.

* A number ends where its digits end, which the reader finds out from the byte behind them. In
  what is written that byte is a comma or a closing bracket, or there is none.
* A string is written character by character and read byte by byte. The bytes of most characters
  stand as they are; quotes, backslashes and control characters are escaped.
* A reader of trees is given fuel. Twice as many bytes as there are to be read is enough.

## Main definitions

* `Node.Within`: A tree that can be written, nested in no more than so many levels.
* `Json.Stops`: What may stand behind a value.

## Theorems

* `Json.number?_toString`: Numbers.
* `Json.marks_quote`: Strings.
* `Json.reads_within`: Trees.
* `Json.read?_write`: Whole documents.
* `Json.eq_some_of_write`: Trees compared by what is written for them.
-/

namespace ContractHost

/-- The tree can be written: there is nothing in it that is not known exactly. No part of it is
    nested in more than so many lists and records. -/
def Node.Within : (depth : Nat) → Node → Prop
  | _, .null => True
  | _, .bool _ => True
  | _, .integer _ => True
  | _, .text _ => True
  | d + 1, .list items => ∀ n ∈ items, Within d n
  | d + 1, .record members => ∀ m ∈ members, m.1.isSome = true ∧ Within d m.2
  | 0, .list _ => False
  | 0, .record _ => False
  | _, .garbled => False
  | _, .other => False

/-- Whether a tree can be written is decided from level to level. -/
instance Node.decidableWithin : (d : Nat) → (n : Node) → Decidable (n.Within d)
  | d, .null => decidable_of_iff True (by rw [Within])
  | d, .bool b => decidable_of_iff True (by rw [Within])
  | d, .integer n => decidable_of_iff True (by rw [Within])
  | d, .text s => decidable_of_iff True (by rw [Within])
  | d + 1, .list items =>
    have := decidableWithin d
    inferInstanceAs (Decidable (∀ n ∈ items, n.Within d))
  | d + 1, .record members =>
    have := decidableWithin d
    inferInstanceAs (Decidable (∀ m ∈ members, m.1.isSome = true ∧ m.2.Within d))
  | 0, .list _ => .isFalse id
  | 0, .record _ => .isFalse id
  | d, .garbled => decidable_of_iff False (by rw [Within])
  | d, .other => decidable_of_iff False (by rw [Within])

namespace Json

open Utf8 (encodeChars)

/-- What may stand behind a value: nothing, a comma or a closing bracket. -/
def Stops : Bytes → Prop
  | [] => True
  | b :: _ => b = 0x2c ∨ b = 0x5d ∨ b = 0x7d

theorem encodeChars_append (cs ds : List Char) :
    encodeChars (cs ++ ds) = encodeChars cs ++ encodeChars ds := List.flatMap_append

theorem encodeChars_cons (c : Char) (cs : List Char) :
    encodeChars (c :: cs) = String.utf8EncodeChar c ++ encodeChars cs := List.flatMap_cons

/-! ## Numbers -/

section Numbers

variable {rest : Bytes}

/-- A number ends where something else may begin: there are no more digits. -/
theorem Stops.takeWhile_digits (h : Stops rest) : rest.takeWhile isDigit = [] := by
  cases rest with
  | nil => rfl
  | cons b rest => rcases h with rfl | rfl | rfl <;> rfl

theorem Stops.dropWhile_digits (h : Stops rest) : rest.dropWhile isDigit = rest := by
  cases rest with
  | nil => rfl
  | cons b rest => rcases h with rfl | rfl | rfl <;> rfl

/-- There is no fraction behind it. -/
theorem Stops.fraction? (h : Stops rest) : fraction? rest = some (false, rest) := by
  cases rest with
  | nil => rfl
  | cons b rest => rcases h with rfl | rfl | rfl <;> rfl

theorem Stops.exponent? (h : Stops rest) : exponent? rest = some (false, rest) := by
  cases rest with
  | nil => rfl
  | cons b rest => rcases h with rfl | rfl | rfl <;> rfl

theorem toNat_of_isDigit {c : Char} (h : c.isDigit = true) : 48 ≤ c.toNat ∧ c.toNat ≤ 57 :=
  Char.isDigit_iff_toNat.mp h

/-- A digit is a byte of its own. -/
theorem encodeChars_digits {cs : List Char} (h : ∀ c ∈ cs, c.isDigit = true) :
    encodeChars cs = cs.map fun c => UInt8.ofNat c.toNat := by
  induction cs with
  | nil => rfl
  | cons c cs ih =>
      have hc := toNat_of_isDigit (h c List.mem_cons_self)
      rw [encodeChars_cons, Utf8.utf8EncodeChar_ascii (by omega), List.map_cons,
        ih fun d hd => h d (List.mem_cons_of_mem c hd)]
      rfl

theorem isDigit_of_mem {cs : List Char} (h : ∀ c ∈ cs, c.isDigit = true) :
    ∀ b ∈ encodeChars cs, isDigit b = true := by
  intro b hb
  rw [encodeChars_digits h] at hb
  rcases List.mem_map.mp hb with ⟨c, hc, rfl⟩
  have hbounds := toNat_of_isDigit (h c hc)
  have hn : (UInt8.ofNat c.toNat).toNat = c.toNat := Utf8.toNat_ofNat (by omega)
  unfold isDigit
  rw [Bool.and_eq_true, decide_eq_true_eq, decide_eq_true_eq, UInt8.le_iff_toNat_le,
    UInt8.le_iff_toNat_le, hn]
  exact hbounds

theorem foldl_digits {cs : List Char} (h : ∀ c ∈ cs, c.isDigit = true) (n : Nat) :
    (encodeChars cs).foldl (fun n d => n * 10 + (d.toNat - 0x30)) n =
      Nat.ofDigitChars 10 cs n := by
  rw [encodeChars_digits h]
  induction cs generalizing n with
  | nil => rfl
  | cons c cs ih =>
      have hbounds := toNat_of_isDigit (h c List.mem_cons_self)
      have hn : (UInt8.ofNat c.toNat).toNat = c.toNat := Utf8.toNat_ofNat (by omega)
      rw [List.map_cons, List.foldl_cons, ih (fun d hd => h d (List.mem_cons_of_mem c hd)),
        Nat.ofDigitChars_cons, hn, Nat.mul_comm]
      rfl

theorem isDigit_of_mem_toDigits (n : Nat) : ∀ c ∈ Nat.toDigits 10 n, c.isDigit = true :=
  fun _ hc => Nat.isDigit_of_mem_toDigits (by decide) (by decide) hc

theorem decimal_toDigits (n : Nat) : decimal (encodeChars (Nat.toDigits 10 n)) = n := by
  rw [decimal, foldl_digits (isDigit_of_mem_toDigits n),
    Nat.ofDigitChars_toDigits (by decide) (by decide)]

/-- The digits of a number that is not zero do not begin with a zero. -/
theorem toDigits_head {n : Nat} (hn : n ≠ 0) : ∃ c cs, Nat.toDigits 10 n = c :: cs ∧ c ≠ '0' := by
  induction n using Nat.strongRecOn with
  | ind n ih =>
      -- A number of several digits begins with what the number without its last one begins with.
      by_cases hlt : n < 10
      · refine ⟨n.digitChar, [], Nat.toDigits_of_lt_base hlt, ?_⟩
        intro hzero
        have htoNat := Nat.toNat_digitChar_of_lt_ten hlt
        rw [hzero] at htoNat
        change 48 = 48 + n at htoNat
        omega
      · rcases ih (n / 10) (by omega) (by omega) with ⟨c, cs, hdigits, hc⟩
        refine ⟨c, cs ++ [(n % 10).digitChar], ?_, hc⟩
        rw [Nat.toDigits_of_base_le (by decide) (by omega), hdigits]
        rfl

theorem digits?_append {ds : Bytes} (hne : ds ≠ []) (hds : ∀ b ∈ ds, isDigit b = true)
    (hrest : Stops rest) : digits? (ds ++ rest) = some (ds, rest) := by
  unfold digits?
  rw [List.takeWhile_append_of_pos hds, List.dropWhile_append_of_pos hds,
    hrest.takeWhile_digits, hrest.dropWhile_digits, List.append_nil]
  rw [if_neg (by rwa [List.isEmpty_iff])]

/-- A number is taken whole, although the reader stops behind a zero at the front. -/
theorem whole?_toDigits (n : Nat) (hrest : Stops rest) :
    whole? (encodeChars (Nat.toDigits 10 n) ++ rest) =
      some (encodeChars (Nat.toDigits 10 n), rest) := by
  by_cases hn : n = 0
  · rw [hn, Nat.toDigits_zero]
    rfl
  · rcases toDigits_head hn with ⟨c, cs, hdigits, hc⟩
    have hall := isDigit_of_mem_toDigits n
    have hbytes := isDigit_of_mem hall
    have hbounds := toNat_of_isDigit (hall c (by rw [hdigits]; exact List.mem_cons_self))
    rw [encodeChars_digits hall] at hbytes ⊢
    rw [hdigits, List.map_cons] at hbytes ⊢
    -- Behind a zero at the front the reader would not look for further digits.
    have hzero : UInt8.ofNat c.toNat ≠ 0x30 := by
      intro heq
      have htoNat := congrArg UInt8.toNat heq
      rw [Utf8.toNat_ofNat (by omega)] at htoNat
      exact hc (Char.toNat_inj.mp htoNat)
    rw [List.cons_append, whole?]
    · exact digits?_append (List.cons_ne_nil _ _) hbytes hrest
    · intro rest' heq
      exact hzero (List.cons.inj heq).1

/-- Without a fraction and an exponent it is known exactly. -/
theorem unsigned?_toDigits (n : Nat) (hrest : Stops rest) :
    unsigned? (encodeChars (Nat.toDigits 10 n) ++ rest) = some (some n, rest) := by
  unfold unsigned?
  rw [whole?_toDigits n hrest]
  dsimp only [Option.bind_eq_bind, Option.bind_some]
  rw [hrest.fraction?]
  dsimp only [Option.bind_some]
  rw [hrest.exponent?]
  dsimp only [Option.bind_some]
  -- Neither of the two is there, so the digits are the whole number.
  rw [if_neg (by decide), decimal_toDigits]

theorem encodeChars_toDigits_cons (n : Nat) :
    ∃ b bs, encodeChars (Nat.toDigits 10 n) = b :: bs ∧ isDigit b = true := by
  have hdigits := isDigit_of_mem (isDigit_of_mem_toDigits n)
  cases hbytes : encodeChars (Nat.toDigits 10 n) with
  | nil =>
      rw [encodeChars_digits (isDigit_of_mem_toDigits n), List.map_eq_nil_iff] at hbytes
      exact absurd hbytes Nat.toDigits_ne_nil
  | cons b bs => exact ⟨b, bs, rfl, hdigits b (by rw [hbytes]; exact List.mem_cons_self)⟩

theorem toString_ofNat (n : Nat) : (toString (Int.ofNat n)).toList = Nat.toDigits 10 n :=
  String.toList_ofList

theorem toString_negSucc (n : Nat) :
    (toString (Int.negSucc n)).toList = '-' :: Nat.toDigits 10 (n + 1) := by
  rw [Int.toString_eq_repr]
  simp [Int.repr]

/-- A number begins with a digit or a minus sign. -/
theorem encodeChars_toString_cons (n : Int) :
    ∃ b bs, encodeChars (toString n).toList = b :: bs ∧ (isDigit b = true ∨ b = 0x2d) := by
  cases n with
  | ofNat n =>
      rcases encodeChars_toDigits_cons n with ⟨b, bs, hbytes, hb⟩
      rw [toString_ofNat]
      exact ⟨b, bs, hbytes, .inl hb⟩
  | negSucc n =>
      rw [toString_negSucc, encodeChars_cons]
      exact ⟨0x2d, _, rfl, .inr rfl⟩

/-- An integer is read back, with its sign. -/
theorem number?_toString (n : Int) (hrest : Stops rest) :
    number? (encodeChars (toString n).toList ++ rest) = some (.integer n, rest) := by
  cases n with
  | ofNat n =>
      rw [toString_ofNat, number?, unsigned?_toDigits n hrest]
      · rfl
      · -- The digits do not begin with a minus sign, so the number is read without one.
        intro rest' hminus
        rcases encodeChars_toDigits_cons n with ⟨b, bs, hbytes, hb⟩
        rw [hbytes] at hminus
        rw [(List.cons.inj hminus).1] at hb
        cases hb
  | negSucc n =>
      rw [toString_negSucc, encodeChars_cons]
      change number? (0x2d :: (encodeChars (Nat.toDigits 10 (n + 1)) ++ rest)) = _
      rw [number?, unsigned?_toDigits (n + 1) hrest]
      rfl

end Numbers

/-! ## Strings -/

/-- Inside a string the bytes are read as the character, whatever stands behind them. -/
def Spells (written : Bytes) (c : Char) : Prop :=
  ∃ ms, (∀ rest, marks (written ++ rest) = (marks rest).map fun r => (ms ++ r.1, r.2)) ∧
    ∀ ms', bytes? (ms ++ ms') = (bytes? ms').map fun b => String.utf8EncodeChar c ++ b

/-- A byte that is neither escaped nor a quote stands for itself. -/
theorem marks_raw {b : UInt8} (hquote : b ≠ 0x22) (hback : b ≠ 0x5c) (hlow : ¬ b < 0x20)
    (rest : Bytes) :
    marks (b :: rest) = (marks rest).map fun r => (.raw b :: r.1, r.2) := by
  rw [marks]
  · rw [if_neg (by simp [hlow, hback])]
    cases marks rest <;> rfl
  · exact hquote
  · intro p q r s rest' heq
    exact absurd heq hback
  · intro e rest' heq
    exact absurd heq hback

theorem marks_append {bs : Bytes} (h : ∀ b ∈ bs, b ≠ 0x22 ∧ b ≠ 0x5c ∧ ¬ b < 0x20)
    (rest : Bytes) :
    marks (bs ++ rest) = (marks rest).map fun r => (bs.map .raw ++ r.1, r.2) := by
  induction bs with
  | nil => simp
  | cons b bs ih =>
      rcases h b List.mem_cons_self with ⟨hquote, hback, hlow⟩
      rw [List.cons_append, marks_raw hquote hback hlow,
        ih fun b hb => h b (List.mem_cons_of_mem _ hb), Option.map_map]
      rfl

theorem bytes?_raw (bs : Bytes) (ms : List Mark) :
    bytes? (bs.map .raw ++ ms) = (bytes? ms).map fun b => bs ++ b := by
  induction bs with
  | nil => simp
  | cons b bs ih =>
      rw [List.map_cons, List.cons_append, bytes?, ih]
      cases bytes? ms <;> rfl

/-- A unit below the range of pairs is a character of its own. -/
theorem bytes?_unit {n : Nat} (h : n < 0xd800) (ms : List Mark) :
    bytes? (.unit n :: ms) =
      (bytes? ms).map fun b => String.utf8EncodeChar (Char.ofNat n) ++ b := by
  rw [bytes?.eq_def (.unit n :: ms)]
  -- Whether a unit is half of a pair depends on what follows. This one is not in that range.
  cases ms with
  | nil =>
      dsimp only
      rw [if_neg (by omega)]
      rfl
  | cons m ms =>
      cases m with
      | raw b =>
          dsimp only
          rw [if_neg (by omega)]
          cases bytes? (.raw b :: ms) <;> rfl
      | unit lo =>
          dsimp only
          rw [if_neg (by omega), if_neg (by omega)]
          cases bytes? (.unit lo :: ms) <;> rfl

/-- Characters that are not escaped. -/
theorem spells_plain {c : Char} (hquote : c ≠ '"') (hback : c ≠ '\\') (hlow : ¬ c.toNat < 0x20) :
    Spells (String.utf8EncodeChar c) c := by
  -- Every byte has to be told apart from the quote, the escape and the control characters.
  refine ⟨(String.utf8EncodeChar c).map .raw, fun rest => marks_append ?_ rest, bytes?_raw _⟩
  intro b hb
  by_cases hascii : c.toNat < 0x80
  · rw [Utf8.utf8EncodeChar_ascii hascii, List.mem_singleton] at hb
    have hn : b.toNat = c.toNat := by
      rw [hb]
      exact Utf8.toNat_ofNat (by omega)
    refine ⟨?_, ?_, ?_⟩
    · rintro rfl
      exact hquote (Char.toNat_inj.mp hn.symm)
    · rintro rfl
      exact hback (Char.toNat_inj.mp hn.symm)
    · rw [UInt8.lt_iff_toNat_lt, hn]
      exact hlow
  · -- The bytes of all other characters lie above everything that is escaped.
    have hhigh : ¬ b < 0x80 := fun hb' => Utf8.not_mem_utf8EncodeChar hascii hb' hb
    rw [UInt8.lt_iff_toNat_lt] at hhigh
    refine ⟨?_, ?_, ?_⟩
    · rintro rfl
      exact hhigh (by decide)
    · rintro rfl
      exact hhigh (by decide)
    · rw [UInt8.lt_iff_toNat_lt]
      exact fun hb' => hhigh (Nat.lt_trans hb' (by decide))

/-- Characters with an escape of one letter. -/
theorem spells_short {c : Char} {e b : UInt8} (he : shortEscape? e = some b) (hu : e ≠ 0x75)
    (hc : String.utf8EncodeChar c = [b]) : Spells [0x5c, e] c := by
  refine ⟨[.raw b], ?_, ?_⟩
  · intro rest
    change marks (0x5c :: e :: rest) = _
    rw [marks, he]
    · cases marks rest <;> rfl
    · intro p q r s rest' h
      exact absurd h hu
  · intro ms
    rw [hc]
    exact bytes?_raw [b] ms

/-- Control characters, of which the last two of four hexadecimal digits are given. -/
theorem spells_long {c : Char} {h l : UInt8} (hhex : hexUnit? 0x30 0x30 h l = some c.toNat)
    (hlow : c.toNat < 0x20) : Spells [0x5c, 0x75, 0x30, 0x30, h, l] c := by
  refine ⟨[.unit c.toNat], ?_, ?_⟩
  · intro rest
    change marks (0x5c :: 0x75 :: 0x30 :: 0x30 :: h :: l :: rest) = _
    rw [marks, hhex]
    cases marks rest <;> rfl
  · intro ms
    have hunit := bytes?_unit (n := c.toNat) (by omega) ms
    rwa [Char.ofNat_toNat] at hunit

/-- A control character is written with its number in hexadecimal digits, and they are read back. -/
theorem hexUnit?_digitChar {n : Nat} (h : n < 0x20) :
    encodeChars ['\\', 'u', '0', '0', Nat.digitChar (n / 16), Nat.digitChar (n % 16)] =
        [0x5c, 0x75, 0x30, 0x30, UInt8.ofNat (Nat.digitChar (n / 16)).toNat,
          UInt8.ofNat (Nat.digitChar (n % 16)).toNat] ∧
      hexUnit? 0x30 0x30 (UInt8.ofNat (Nat.digitChar (n / 16)).toNat)
        (UInt8.ofNat (Nat.digitChar (n % 16)).toNat) = some n := by
  revert n
  decide

/-- Every character is read back from how it is written inside a string. -/
theorem spells_escape (c : Char) : Spells (encodeChars (escape c)) c := by
  -- The cases are those of the writer: seven characters with an escape of one letter, the other
  -- control characters, and all the rest.
  unfold escape
  split
  · next h => exact spells_short (b := 0x22) rfl (by decide) (by rw [h]; rfl)
  split
  · next h => exact spells_short (b := 0x5c) rfl (by decide) (by rw [h]; rfl)
  split
  · next h => exact spells_short (b := 0x0a) rfl (by decide) (by rw [h]; rfl)
  split
  · next h => exact spells_short (b := 0x0d) rfl (by decide) (by rw [h]; rfl)
  split
  · next h => exact spells_short (b := 0x09) rfl (by decide) (by rw [h]; rfl)
  split
  · next h => exact spells_short (b := 0x08) rfl (by decide) (by rw [h]; rfl)
  split
  · next h => exact spells_short (b := 0x0c) rfl (by decide) (by rw [h]; rfl)
  split
  · next hlow =>
    rcases hexUnit?_digitChar hlow with ⟨hbytes, hhex⟩
    rw [hbytes]
    exact spells_long hhex hlow
  · next hquote hback _ _ _ _ _ hlow =>
    rw [encodeChars_cons]
    simpa [encodeChars] using spells_plain hquote hback hlow

/-- Characters in a row are read back, up to the closing quote. -/
theorem marks_escaped (cs : List Char) :
    ∃ ms, (∀ rest, marks (encodeChars (cs.flatMap escape) ++ 0x22 :: rest) = some (ms, rest)) ∧
      bytes? ms = some (encodeChars cs) := by
  induction cs with
  | nil => exact ⟨[], fun _ => rfl, rfl⟩
  | cons c cs ih =>
      rcases ih with ⟨ms, hmarks, hbytes⟩
      -- The marks of a character do not depend on what follows, so those of the others come behind.
      rcases spells_escape c with ⟨ms', hmarks', hbytes'⟩
      refine ⟨ms' ++ ms, ?_, ?_⟩
      · intro rest
        rw [List.flatMap_cons, encodeChars_append, List.append_assoc, hmarks', hmarks]
        rfl
      · rw [hbytes', hbytes]
        rfl

/-- A text is read back from what is written for it, from behind the quote it begins with. -/
theorem marks_quote (s : String) :
    ∃ written ms, encodeChars (quote s) = 0x22 :: written ∧
      (∀ rest, marks (written ++ rest) = some (ms, rest)) ∧ textOf? ms = some s := by
  rcases marks_escaped s.toList with ⟨ms, hmarks, hbytes⟩
  refine ⟨encodeChars (s.toList.flatMap escape) ++ [0x22], ms, ?_, ?_, ?_⟩
  · unfold quote
    rw [List.cons_append, encodeChars_cons, encodeChars_append]
    rfl
  · intro rest
    rw [List.append_assoc]
    exact hmarks rest
  · rw [textOf?, hbytes, Option.bind_some, Utf8.decode?_encodeChars, String.ofList_toList]

/-! ## Trees -/

theorem skip_cons {b : UInt8} (h : isSpace b = false) (rest : Bytes) :
    skip (b :: rest) = b :: rest := by
  rw [skip, List.dropWhile_cons_of_neg (by rw [h]; decide)]

/-- What begins a number is neither a blank nor anything else that begins a value. -/
theorem number_head {b : UInt8} (h : isDigit b = true ∨ b = 0x2d) :
    isSpace b = false ∧ ∀ b', ¬ (isDigit b' = true ∨ b' = 0x2d) → b ≠ b' := by
  have hother (b' : UInt8) (hb' : ¬ (isDigit b' = true ∨ b' = 0x2d)) : b ≠ b' := by
    rintro rfl
    exact hb' h
  refine ⟨?_, hother⟩
  unfold isSpace
  rw [decide_eq_false (hother 0x20 (by decide)), decide_eq_false (hother 0x09 (by decide)),
    decide_eq_false (hother 0x0a (by decide)), decide_eq_false (hother 0x0d (by decide))]
  rfl

/-- What begins like a number is read as one. -/
theorem value_number {b : UInt8} (h : isDigit b = true ∨ b = 0x2d) (fuel : Nat) (bs : Bytes) :
    value (fuel + 1) (b :: bs) = number? (b :: bs) := by
  rcases number_head h with ⟨hspace, hother⟩
  rw [value, skip_cons hspace]
  -- What begins a number is none of the other beginnings.
  split
  · next heq => exact absurd (List.cons.inj heq).1 (hother _ (by decide))
  · next heq => exact absurd (List.cons.inj heq).1 (hother _ (by decide))
  · next heq => exact absurd (List.cons.inj heq).1 (hother _ (by decide))
  · next heq => exact absurd (List.cons.inj heq).1 (hother _ (by decide))
  · next heq => exact absurd (List.cons.inj heq).1 (hother _ (by decide))
  · next heq => exact absurd (List.cons.inj heq).1 (hother _ (by decide))
  · rfl

section Steps

variable {fuel : Nat} {rest rest' bs : Bytes} {ms : List Mark} {n : Node}

theorem value_text {s : String} (hmarks : marks bs = some (ms, rest))
    (htext : textOf? ms = some s) : value (fuel + 1) (0x22 :: bs) = some (.text s, rest) := by
  change (marks bs).bind _ = _
  rw [hmarks, Option.bind_some]
  dsimp only
  rw [htext]

/-- An opening bracket begins a list, which is not empty if no closing one follows. -/
theorem value_list {b : UInt8} (hspace : isSpace b = false) (hb : b ≠ 0x5d) :
    value (fuel + 1) (0x5b :: b :: bs) =
      (items fuel (b :: bs)).map fun r => (.list r.1, r.2) := by
  rw [value, skip_cons (show isSpace 0x5b = false by decide)]
  simp only [skip_cons hspace]
  split
  · next heq => exact absurd (List.cons.inj heq).1 hb
  · cases items fuel (b :: bs) <;> rfl

theorem value_record :
    value (fuel + 1) (0x7b :: 0x22 :: bs) =
      (members fuel (0x22 :: bs)).map fun r => (.record r.1, r.2) := by
  change (members fuel (0x22 :: bs)).bind _ = _
  cases members fuel (0x22 :: bs) <;> rfl

theorem items_last (h : value fuel bs = some (n, 0x5d :: rest)) :
    items (fuel + 1) bs = some ([n], rest) := by
  rw [items, h]
  rfl

theorem items_more (h : value fuel bs = some (n, 0x2c :: rest)) :
    items (fuel + 1) bs = (items fuel rest).map fun r => (n :: r.1, r.2) := by
  rw [items, h]
  change (items fuel rest).bind _ = _
  cases items fuel rest <;> rfl

theorem members_last (hmarks : marks bs = some (ms, 0x3a :: rest))
    (h : value fuel rest = some (n, 0x7d :: rest')) :
    members (fuel + 1) (0x22 :: bs) = some ([(textOf? ms, n)], rest') := by
  change (marks bs).bind _ = _
  rw [hmarks]
  change (value fuel rest).bind _ = _
  rw [h]
  rfl

theorem members_more (hmarks : marks bs = some (ms, 0x3a :: rest))
    (h : value fuel rest = some (n, 0x2c :: rest')) :
    members (fuel + 1) (0x22 :: bs) =
      (members fuel rest').map fun r => ((textOf? ms, n) :: r.1, r.2) := by
  change (marks bs).bind _ = _
  rw [hmarks]
  change (value fuel rest).bind _ = _
  rw [h]
  change (members fuel rest').bind _ = _
  cases members fuel rest' <;> rfl

end Steps

/-- The tree is read back from what is written for it, if it is followed by what may stand
    behind a value, and there is enough fuel. -/
def Reads (n : Node) : Prop :=
  ∀ (fuel : Nat) (rest : Bytes), 2 * (write n).length < fuel → Stops rest →
    value fuel (write n ++ rest) = some (n, rest)

/-- Neither a blank nor a closing bracket begins a value. -/
theorem write_cons (n : Node) :
    ∃ b bs, write n = b :: bs ∧ isSpace b = false ∧ b ≠ 0x5d := by
  cases n with
  | null => exact ⟨_, _, rfl, by decide, by decide⟩
  | bool b => cases b <;> exact ⟨_, _, rfl, by decide, by decide⟩
  | integer n =>
      rcases encodeChars_toString_cons n with ⟨b, bs, hbytes, hb⟩
      refine ⟨b, bs, hbytes, ?_, ?_⟩
      · exact (number_head hb).1
      · exact (number_head hb).2 _ (by decide)
  | text s =>
      rcases marks_quote s with ⟨written, ms, hbytes, -, -⟩
      exact ⟨_, _, hbytes, by decide, by decide⟩
  | list items =>
      cases items with
      | nil => exact ⟨_, _, rfl, by decide, by decide⟩
      | cons item items =>
          rw [write, render, List.cons_append, encodeChars_cons]
          exact ⟨_, _, rfl, by decide, by decide⟩
  | record members =>
      cases members with
      | nil => exact ⟨_, _, rfl, by decide, by decide⟩
      | cons member members =>
          rcases member with ⟨label, content⟩
          rw [write, render, List.cons_append, List.cons_append, encodeChars_cons]
          exact ⟨_, _, rfl, by decide, by decide⟩
  | garbled => exact ⟨_, _, rfl, by decide, by decide⟩
  | other => exact ⟨_, _, rfl, by decide, by decide⟩

/-- The items of a list that is not empty. -/
theorem items_write {n : Node} {ns : List Node} (h : ∀ m ∈ n :: ns, Reads m) (fuel : Nat)
    (rest : Bytes) (hfuel : 2 * (write n ++ encodeChars (renderItems ns)).length < fuel) :
    items fuel (write n ++ (encodeChars (renderItems ns) ++ rest)) = some (n :: ns, rest) := by
  -- Each item takes one step from the fuel, and has at least one byte, which stands for two.
  induction ns generalizing n fuel with
  | nil =>
      cases fuel with
      | zero => omega
      | succ fuel =>
          have hrender : encodeChars (renderItems []) = [0x5d] := rfl
          rw [hrender, List.length_append, List.length_singleton] at hfuel
          apply items_last
          exact h n List.mem_cons_self fuel (0x5d :: rest) (by omega) (.inr (.inl rfl))
  | cons m ns ih =>
      cases fuel with
      | zero => omega
      | succ fuel =>
          have hrender : encodeChars (renderItems (m :: ns)) =
              0x2c :: (write m ++ encodeChars (renderItems ns)) := by
            rw [renderItems, List.cons_append, encodeChars_cons, encodeChars_append]
            rfl
          rw [hrender, List.length_append, List.length_cons] at hfuel
          rw [hrender, List.cons_append, List.append_assoc]
          rw [items_more (h n List.mem_cons_self fuel _ (by omega) (.inl rfl)),
            ih (fun m' hm' => h m' (List.mem_cons_of_mem n hm')) fuel (by omega)]
          rfl

theorem renderMembers_cons (label : String) (n : Node) (ms : List (Option String × Node)) :
    encodeChars (renderMembers ((some label, n) :: ms)) =
      0x2c :: (encodeChars (quote label) ++
        0x3a :: (write n ++ encodeChars (renderMembers ms))) := by
  rw [renderMembers, Option.getD_some, List.append_assoc, List.cons_append, List.cons_append,
    encodeChars_cons, encodeChars_append, encodeChars_cons, encodeChars_append]
  rfl

/-- The members of a record that is not empty. -/
theorem members_write (label : String) {n : Node} {ms : List (Option String × Node)}
    (hn : Reads n) (hms : ∀ m ∈ ms, m.1.isSome = true ∧ Reads m.2) (fuel : Nat) (rest : Bytes)
    (hfuel : 2 * (encodeChars (quote label) ++
      0x3a :: (write n ++ encodeChars (renderMembers ms))).length < fuel) :
    members fuel (encodeChars (quote label) ++
        0x3a :: (write n ++ (encodeChars (renderMembers ms) ++ rest))) =
      some ((some label, n) :: ms, rest) := by
  -- Each member takes one step from the fuel too, and its value has less than is left.
  induction ms generalizing label n fuel with
  | nil =>
      cases fuel with
      | zero => omega
      | succ fuel =>
          rcases marks_quote label with ⟨written, marks, hquote, hmarks, htext⟩
          rw [List.length_append, List.length_cons, List.length_append] at hfuel
          rw [hquote, List.cons_append, ← htext]
          have hvalue := hn fuel (0x7d :: rest) (by omega) (.inr (.inr rfl))
          exact members_last (hmarks _) hvalue
  | cons m ms ih =>
      cases fuel with
      | zero => omega
      | succ fuel =>
          rcases m with ⟨label', n'⟩
          have hn' : Reads n' := (hms _ List.mem_cons_self).2
          have hlabel' : label'.isSome = true := (hms _ List.mem_cons_self).1
          rcases Option.isSome_iff_exists.mp hlabel' with ⟨label', rfl⟩
          rcases marks_quote label with ⟨written, marks, hquote, hmarks, htext⟩
          rw [renderMembers_cons, List.length_append, List.length_cons, List.length_append,
            List.length_cons] at hfuel
          have hothers := ih label' hn' (fun m hm => hms m (List.mem_cons_of_mem _ hm)) fuel
            (by omega)
          have hvalue := hn fuel (0x2c :: (encodeChars (quote label') ++
            0x3a :: (write n' ++ (encodeChars (renderMembers ms) ++ rest)))) (by omega)
            (.inl rfl)
          rw [renderMembers_cons, hquote, List.cons_append, List.cons_append, List.append_assoc,
            List.cons_append, List.append_assoc, members_more (hmarks _) hvalue, hothers, htext]
          rfl

/-- Every value takes a step from the fuel, so there may be as little as one more than is needed for
    its parts. -/
theorem reads_of_succ {n : Node}
    (h : ∀ (fuel : Nat) (rest : Bytes), 2 * (write n).length ≤ fuel → Stops rest →
      value (fuel + 1) (write n ++ rest) = some (n, rest)) : Reads n := by
  intro fuel rest hfuel hrest
  cases fuel with
  | zero => omega
  | succ fuel => exact h fuel rest (by omega) hrest

theorem reads_integer (n : Int) : Reads (.integer n) := by
  apply reads_of_succ
  intro fuel rest _ hrest
  rcases encodeChars_toString_cons n with ⟨b, bs, hbytes, hb⟩
  have hnumber := number?_toString n hrest
  have hwrite : write (.integer n) = b :: bs := hbytes
  rw [hbytes] at hnumber
  rw [hwrite, List.cons_append, value_number hb]
  exact hnumber

theorem reads_text (s : String) : Reads (.text s) := by
  apply reads_of_succ
  intro fuel rest _ _
  rcases marks_quote s with ⟨written, ms, hquote, hmarks, htext⟩
  have hwrite : write (.text s) = 0x22 :: written := hquote
  rw [hwrite]
  exact value_text (hmarks rest) htext

theorem reads_list {items : List Node} (h : ∀ n ∈ items, Reads n) : Reads (.list items) := by
  apply reads_of_succ
  intro fuel rest hfuel _
  cases items with
  | nil => rfl
  | cons n ns =>
      have hwrite : write (.list (n :: ns)) =
          0x5b :: (write n ++ encodeChars (renderItems ns)) := by
        rw [write, render, List.cons_append, encodeChars_cons, encodeChars_append]
        rfl
      -- The first item must not be taken for the end of an empty list.
      rcases write_cons n with ⟨b, bs, hbytes, hspace, hb⟩
      rw [hwrite, List.length_cons] at hfuel
      have hitems := items_write h fuel rest (by omega)
      rw [hwrite, List.cons_append, List.append_assoc]
      rw [hbytes, List.cons_append] at hitems ⊢
      rw [value_list hspace hb, hitems]
      rfl

/-- Records are read back if all their members have names and their values are read back. -/
theorem reads_record {members : List (Option String × Node)}
    (h : ∀ m ∈ members, m.1.isSome = true ∧ Reads m.2) : Reads (.record members) := by
  apply reads_of_succ
  intro fuel rest hfuel _
  cases members with
  | nil => rfl
  | cons m ms =>
      rcases m with ⟨label, n⟩
      have hn : Reads n := (h _ List.mem_cons_self).2
      have hlabel : label.isSome = true := (h _ List.mem_cons_self).1
      rcases Option.isSome_iff_exists.mp hlabel with ⟨label, rfl⟩
      have hwrite : write (.record ((some label, n) :: ms)) =
          0x7b :: (encodeChars (quote label) ++
            0x3a :: (write n ++ encodeChars (renderMembers ms))) := by
        rw [write, render, Option.getD_some, List.append_assoc, List.cons_append,
          List.cons_append, encodeChars_cons, encodeChars_append, encodeChars_cons,
          encodeChars_append]
        rfl
      rw [hwrite, List.length_cons] at hfuel
      have hmembers := members_write label hn
        (fun m hm => h m (List.mem_cons_of_mem _ hm)) fuel rest (by omega)
      rw [hwrite, List.cons_append, List.append_assoc, List.cons_append, List.append_assoc]
      rcases marks_quote label with ⟨written, ms', hquote, -, -⟩
      rw [hquote, List.cons_append] at hmembers ⊢
      rw [value_record, hmembers]
      rfl

/-- Every tree that can be written is read back. -/
theorem reads_within {depth : Nat} {n : Node} (h : n.Within depth) : Reads n := by
  -- The last four cases are trees that cannot be written: those without a level left and those not
  -- known exactly.
  induction depth, n using Node.Within.induct with
  | case1 => exact reads_of_succ fun _ _ _ _ => rfl
  | case2 _ b => cases b <;> exact reads_of_succ fun _ _ _ _ => rfl
  | case3 _ n => exact reads_integer n
  | case4 _ s => exact reads_text s
  | case5 d items ih => exact reads_list fun n hn => ih n (h n hn)
  | case6 d members ih =>
      exact reads_record fun m hm => ⟨(h m hm).1, ih m (h m hm).2⟩
  | case7 => exact h.elim
  | case8 => exact h.elim
  | case9 => exact absurd h (by rw [Node.Within]; exact not_false)
  | case10 => exact absurd h (by rw [Node.Within]; exact not_false)

/-- What has been written for a tree is read as the tree. -/
theorem read?_write {depth : Nat} {n : Node} (h : n.Within depth) : read? (write n) = some n := by
  have hvalue := reads_within h (2 * (write n).length + 2) [] (by omega) trivial
  rw [List.append_nil] at hvalue
  unfold read?
  rw [hvalue]
  rfl

/-- Trees that can be written are told apart by what is written for them. -/
theorem eq_some_of_write {d : Nat} {found : Option Node} {n : Node} (hn : n.Within d)
    (h : found.any (fun m => decide (m.Within d ∧ write m = write n)) = true) :
    found = some n := by
  cases found with
  | none => cases h
  | some m =>
      rcases of_decide_eq_true h with ⟨hm, hwrite⟩
      -- Whatever is read of the one is read of the other.
      rw [← read?_write hm, hwrite, read?_write hn]

end Json

end ContractHost
