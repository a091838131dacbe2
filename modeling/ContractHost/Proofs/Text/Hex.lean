import ContractHost.Proofs.Text.Utf8
import ContractHost.Text.Hex

/-!
# What Stands for Bytes in Hexadecimal

Digits are read from the bytes of a text, and the text may hold any characters. A byte that has a
value as a digit is an ASCII byte, so the character that it belongs to has no other byte, and the
digits that a reader meets are the characters of the text after all. A text of any other
characters is refused, wherever they stand and however many bytes they have.

Digits come in either case, but bytes are written in lower-case ones. So what is written for the
bytes of some digits are the same digits in lower case, and that is also all there is to know of
the bytes, because different bytes are written differently.

## Main definitions

* `Hex.IsDigit`: A digit of either case.

## Theorems

* `Hex.digits_injective`: Different bytes have different digits.
* `Hex.isDigit_of_value?`: The characters that bytes with a value belong to.
* `Hex.pairs_of_digits`: Digits in pairs are read.
* `Hex.decode_eq_ok_iff`: What a text stands for.
-/

namespace ContractHost

namespace Hex

/-- A hexadecimal digit of either case. -/
def IsDigit (c : Char) : Prop := c ∈ "0123456789abcdefABCDEF".toList

instance (c : Char) : Decidable (IsDigit c) :=
  inferInstanceAs (Decidable (c ∈ "0123456789abcdefABCDEF".toList))

/-! ## Digits of bytes -/

theorem isDigit_digit {n : Nat} (h : n < 16) :
    IsDigit (digit n) ∧ (digit n).toLower = digit n := by
  revert n
  decide

theorem digit_injective {m n : Nat} (hm : m < 16) (hn : n < 16) (h : digit m = digit n) :
    m = n := by
  have hall : ∀ m < 16, ∀ n < 16, digit m = digit n → m = n := by decide
  exact hall m hm n hn h

theorem length_digits (b : Bytes) : (digits b).length = 2 * b.length := by
  induction b with
  | nil => rfl
  | cons x b ih =>
      simp only [digits, List.length_cons, ih]
      omega

/-- Bytes are written in digits of lower case. -/
theorem isDigit_of_mem_digits (b : Bytes) : ∀ c ∈ digits b, IsDigit c ∧ c.toLower = c := by
  induction b with
  | nil => exact fun c hc => absurd hc List.not_mem_nil
  | cons x b ih =>
      have hx := x.toNat_lt
      intro c hc
      rw [digits, List.mem_cons, List.mem_cons] at hc
      rcases hc with rfl | rfl | hc
      · exact isDigit_digit (by omega)
      · exact isDigit_digit (by omega)
      · exact ih c hc

theorem map_toLower_digits (b : Bytes) : (digits b).map Char.toLower = digits b := by
  have h := List.map_congr_left fun c hc => (isDigit_of_mem_digits b c hc).2
  rwa [List.map_id'] at h

/-- Different bytes have different digits, since a byte is the two numbers its digits stand for. -/
theorem digits_injective : Function.Injective digits := by
  intro b
  induction b with
  | nil =>
      intro b' h
      cases b' with
      | nil => rfl
      | cons y b' => cases h
  | cons x b ih =>
      intro b' h
      cases b' with
      | nil => cases h
      | cons y b' =>
          have hx := x.toNat_lt
          have hy := y.toNat_lt
          rw [digits, digits, List.cons.injEq, List.cons.injEq] at h
          rcases h with ⟨hhigh, hlow, hrest⟩
          -- The quotient and the remainder by sixteen make up the byte.
          have hquot := digit_injective (by omega) (by omega) hhigh
          have hrem := digit_injective (by omega) (by omega) hlow
          have hxy : x = y := UInt8.toNat.inj (by omega)
          rw [hxy, ih hrest]

/-! ## Digits as bytes of a text -/

theorem bounds_of_value? {b : UInt8} {n : Nat} (h : value? b = some n) : b < 0x80 ∧ n < 16 := by
  unfold value? at h
  rw [UInt8.lt_iff_toNat_lt]
  simp only [UInt8.le_iff_toNat_le] at h
  change b.toNat < 128 ∧ n < 16
  split at h
  · next hb =>
      have hbounds : 48 ≤ b.toNat ∧ b.toNat ≤ 57 := hb
      cases h
      omega
  · split at h
    · next hb =>
        have hbounds : 65 ≤ b.toNat ∧ b.toNat ≤ 70 := hb
        cases h
        omega
    · split at h
      · next hb =>
          have hbounds : 97 ≤ b.toNat ∧ b.toNat ≤ 102 := hb
          cases h
          omega
      · cases h

/-- The byte of a digit has a value, whose own digit is the one in lower case. -/
theorem value?_of_isDigit {c : Char} (h : IsDigit c) :
    c.toNat < 0x80 ∧ ∃ n < 16, value? (UInt8.ofNat c.toNat) = some n ∧ digit n = c.toLower := by
  -- Checked in the list, for there are too many characters to go through.
  have hall : "0123456789abcdefABCDEF".toList.all (fun c => c.toNat < 0x80 &&
      (value? (UInt8.ofNat c.toNat)).map digit == some c.toLower) = true := by decide
  have hc := List.all_eq_true.mp hall c h
  rw [Bool.and_eq_true, decide_eq_true_eq, beq_iff_eq, Option.map_eq_some_iff] at hc
  rcases hc with ⟨hascii, n, hn, hlower⟩
  exact ⟨hascii, n, (bounds_of_value? hn).2, hn, hlower⟩

/-- A byte that has a value as a digit is a character of its own. -/
theorem isDigit_of_value? {c : Char} {b : UInt8} {n : Nat} (hb : b ∈ String.utf8EncodeChar c)
    (h : value? b = some n) : IsDigit c := by
  -- There are few enough ASCII characters to go through.
  have hall : ∀ m < 0x80, (value? (UInt8.ofNat m)).isSome → IsDigit (Char.ofNat m) := by decide
  by_cases hascii : c.toNat < 0x80
  · rw [Utf8.utf8EncodeChar_ascii hascii, List.mem_singleton] at hb
    have hdigit := hall c.toNat hascii (by rw [← hb, h]; rfl)
    rwa [Char.ofNat_toNat] at hdigit
  · exact absurd hb (Utf8.not_mem_utf8EncodeChar hascii (bounds_of_value? h).1)

/-- A text of digits has one byte for every character. -/
theorem encodeChars_of_isDigit {cs : List Char} (h : ∀ c ∈ cs, IsDigit c) :
    Utf8.encodeChars cs = cs.map fun c => UInt8.ofNat c.toNat := by
  induction cs with
  | nil => rfl
  | cons c cs ih =>
      rw [Utf8.encodeChars, List.flatMap_cons,
        Utf8.utf8EncodeChar_ascii (value?_of_isDigit (h c List.mem_cons_self)).1]
      exact congrArg _ (ih fun c' hc' => h c' (List.mem_cons_of_mem c hc'))

/-! ## Pairs of digits -/

/-- Whatever is read as pairs of digits consists of digits. -/
theorem value?_of_pairs {index : Nat} {ds b : Bytes} (heven : ds.length % 2 = 0)
    (h : pairs index ds = .ok b) : ∀ d ∈ ds, ∃ n, value? d = some n := by
  -- Pairs are cut off from the front, and no byte is left alone since their number is even.
  match ds with
  | [] => exact fun d hd => absurd hd List.not_mem_nil
  | [d] => simp at heven
  | hi :: lo :: rest =>
      simp only [List.length_cons] at heven
      rw [pairs] at h
      cases hhi : value? hi with
      | none =>
          rw [hhi] at h
          cases h
      | some m =>
          cases hlo : value? lo with
          | none =>
              rw [hhi, hlo] at h
              cases h
          | some n =>
              rw [hhi, hlo] at h
              dsimp only at h
              cases hrest : pairs (index + 2) rest with
              | error fault =>
                  rw [hrest] at h
                  cases h
              | ok b' =>
                  intro d hd
                  rw [List.mem_cons, List.mem_cons] at hd
                  rcases hd with rfl | rfl | hd
                  · exact ⟨m, hhi⟩
                  · exact ⟨n, hlo⟩
                  · exact value?_of_pairs (by omega) hrest d hd

/-- Digits in pairs are read as bytes, whose own digits are the same in lower case. -/
theorem pairs_of_digits (index : Nat) (cs : List Char) (heven : cs.length % 2 = 0)
    (h : ∀ c ∈ cs, IsDigit c) :
    ∃ b, pairs index (cs.map fun c => UInt8.ofNat c.toNat) = .ok b ∧
      digits b = cs.map Char.toLower := by
  match cs with
  | [] => exact ⟨[], rfl, rfl⟩
  | [c] => simp at heven
  | c :: c' :: cs =>
      simp only [List.length_cons] at heven
      rcases pairs_of_digits (index + 2) cs (by omega)
        (fun d hd => h d (List.mem_cons_of_mem c (List.mem_cons_of_mem c' hd))) with ⟨b, hb, hlower⟩
      rcases value?_of_isDigit (h c List.mem_cons_self) with ⟨-, m, hm, hvalue, hdigit⟩
      rcases value?_of_isDigit (h c' (List.mem_cons_of_mem c List.mem_cons_self)) with
        ⟨-, n, hn, hvalue', hdigit'⟩
      -- Two digits are a number that fits into a byte, so nothing is lost in the byte.
      have hbyte : (UInt8.ofNat (m * 16 + n)).toNat = m * 16 + n := Utf8.toNat_ofNat (by omega)
      refine ⟨UInt8.ofNat (m * 16 + n) :: b, ?_, ?_⟩
      · rw [List.map_cons, List.map_cons, pairs, hvalue, hvalue']
        dsimp only
        rw [hb]
        rfl
      · rw [digits, hbyte, hlower, show (m * 16 + n) / 16 = m by omega,
          show (m * 16 + n) % 16 = n by omega, hdigit, hdigit']
        rfl

/-- A text stands for some bytes exactly if it is an even number of digits, which in lower case
    are the digits of the bytes. -/
theorem decode_eq_ok_iff {cs : List Char} {b : Bytes} :
    decode (Utf8.encodeChars cs) = .ok b ↔
      cs.length % 2 = 0 ∧ (∀ c ∈ cs, IsDigit c) ∧ digits b = cs.map Char.toLower := by
  unfold decode
  constructor
  · intro h
    by_cases hodd : (Utf8.encodeChars cs).length % 2 = 1
    · rw [if_pos hodd] at h
      cases h
    · rw [if_neg hodd] at h
      have hdigit : ∀ c ∈ cs, IsDigit c := by
        intro c hc
        -- Every character has a first byte, and that one is enough.
        rcases hbytes : String.utf8EncodeChar c with _ | ⟨x, rest⟩
        · exact absurd hbytes (by simp)
        · have hx : x ∈ String.utf8EncodeChar c := by
            rw [hbytes]
            exact List.mem_cons_self
          rcases value?_of_pairs (by omega) h x (List.mem_flatMap.mpr ⟨c, hc, hx⟩) with ⟨n, hn⟩
          exact isDigit_of_value? hx hn
      rw [encodeChars_of_isDigit hdigit] at h hodd
      rw [List.length_map] at hodd
      rcases pairs_of_digits 0 cs (by omega) hdigit with ⟨b', hb', hlower⟩
      rw [hb', Except.ok.injEq] at h
      exact ⟨by omega, hdigit, h ▸ hlower⟩
  · rintro ⟨heven, hdigit, hlower⟩
    rw [encodeChars_of_isDigit hdigit, List.length_map, if_neg (by omega)]
    rcases pairs_of_digits 0 cs heven hdigit with ⟨b', hb', hlower'⟩
    rw [hb', digits_injective (hlower'.trans hlower.symm)]

end Hex

end ContractHost
