import ContractHost.Proofs.Text.Utf8
import ContractHost.Text.Base64

/-!
# One Written Form for Every Byte String

The digits for the numbers below sixty-four are told apart by their values and are all different
from the fill. Whoever reads a group of them therefore gets back the number that was written,
and, since the bits the fill leaves unused have to be zero, nothing else is read as the same
bytes.

## Theorems

* `Base64.value?_digit`, `Base64.digit_of_value?`: Digits and their values.
* `Base64.ofDigits?_digits`: The bytes are read back from their digits.
* `Base64.digits_of_ofDigits?`: The digits are written back from their bytes.
* `Base64.decode?_eq_some_iff`: What is read as some bytes is what is written for them.
-/

namespace ContractHost

namespace Base64

/-! ## Digits -/

theorem value?_digit {n : Nat} (h : n < 64) : value? (digit n) = some n := by
  revert n
  decide

theorem digit_ne_fill {n : Nat} (h : n < 64) : digit n ≠ '=' := by
  revert n
  decide

/-- A character that has a value is the digit for it. -/
theorem digit_of_value? {c : Char} {n : Nat} (h : value? c = some n) : n < 64 ∧ digit n = c := by
  -- Letters and numerals are three ranges of characters, so the number of the character is all that
  -- has to be the same.
  have hchar (m : Nat) (hm : m = c.toNat) : Char.ofNat m = c := by
    rw [hm, Char.ofNat_toNat]
  unfold value? at h
  unfold digit
  split at h
  · cases h
    refine ⟨by omega, ?_⟩
    rw [if_pos (by omega)]
    exact hchar _ (by omega)
  · split at h
    · cases h
      refine ⟨by omega, ?_⟩
      rw [if_neg (by omega), if_pos (by omega)]
      exact hchar _ (by omega)
    · split at h
      · cases h
        refine ⟨by omega, ?_⟩
        rw [if_neg (by omega), if_neg (by omega), if_pos (by omega)]
        exact hchar _ (by omega)
      · split at h
        · next hplus =>
          cases h
          exact ⟨by omega, hplus.symm⟩
        · split at h
          · next hslash =>
            cases h
            exact ⟨by omega, hslash.symm⟩
          · cases h

/-! ## Groups of digits -/

theorem lastByte?_digits (a : UInt8) :
    lastByte? (digit (a.toNat * 16 / 64)) (digit (a.toNat * 16 % 64)) = some [a] := by
  have ha := a.toNat_lt
  unfold lastByte?
  rw [value?_digit (by omega), value?_digit (by omega)]
  dsimp only [Option.bind_eq_bind, Option.bind_some]
  rw [Nat.div_add_mod', if_pos (by omega), Nat.mul_div_cancel _ (by omega), UInt8.ofNat_toNat]

theorem lastTwo?_digits (a b : UInt8) :
    lastTwo? (digit ((a.toNat * 256 + b.toNat) * 4 / 4096))
      (digit ((a.toNat * 256 + b.toNat) * 4 / 64 % 64))
      (digit ((a.toNat * 256 + b.toNat) * 4 % 64)) = some [a, b] := by
  have ha := a.toNat_lt
  have hb := b.toNat_lt
  unfold lastTwo?
  rw [value?_digit (by omega), value?_digit (by omega), value?_digit (by omega)]
  dsimp only [Option.bind_eq_bind, Option.bind_some]
  generalize hn : (a.toNat * 256 + b.toNat) * 4 = n
  -- The digits are the number of the group to the base of sixty-four.
  have hgroup : (n / 4096 * 64 + n / 64 % 64) * 64 + n % 64 = n := by omega
  have ha' : n / 1024 = a.toNat := by omega
  have hb' : n / 4 % 256 = b.toNat := by omega
  rw [hgroup, if_pos (by omega), ha', hb', UInt8.ofNat_toNat, UInt8.ofNat_toNat]

theorem three?_digits (a b c : UInt8) :
    three? (digit (((a.toNat * 256 + b.toNat) * 256 + c.toNat) / 262144))
      (digit (((a.toNat * 256 + b.toNat) * 256 + c.toNat) / 4096 % 64))
      (digit (((a.toNat * 256 + b.toNat) * 256 + c.toNat) / 64 % 64))
      (digit (((a.toNat * 256 + b.toNat) * 256 + c.toNat) % 64)) = some [a, b, c] := by
  have ha := a.toNat_lt
  have hb := b.toNat_lt
  have hc := c.toNat_lt
  unfold three?
  rw [value?_digit (by omega), value?_digit (by omega), value?_digit (by omega),
    value?_digit (by omega)]
  dsimp only [Option.bind_eq_bind, Option.bind_some]
  generalize hn : (a.toNat * 256 + b.toNat) * 256 + c.toNat = n
  have hgroup :
      ((n / 262144 * 64 + n / 4096 % 64) * 64 + n / 64 % 64) * 64 + n % 64 = n := by omega
  have ha' : n / 65536 = a.toNat := by omega
  have hb' : n / 256 % 256 = b.toNat := by omega
  have hc' : n % 256 = c.toNat := by omega
  rw [hgroup, ha', hb', hc', UInt8.ofNat_toNat, UInt8.ofNat_toNat, UInt8.ofNat_toNat]

theorem digits_of_lastByte? {p q : Char} {b : Bytes} (h : lastByte? p q = some b) :
    digits b = [p, q, '=', '='] := by
  simp only [lastByte?, Option.bind_eq_bind, Option.bind_eq_some_iff] at h
  rcases h with ⟨i, hp, j, hq, h⟩
  rcases digit_of_value? hp with ⟨hi, rfl⟩
  rcases digit_of_value? hq with ⟨hj, rfl⟩
  split at h
  · cases h
    have hx : (UInt8.ofNat ((i * 64 + j) / 16)).toNat = (i * 64 + j) / 16 :=
      Utf8.toNat_ofNat (by omega)
    have hn : (i * 64 + j) / 16 * 16 = i * 64 + j := by omega
    have hi' : (i * 64 + j) / 64 = i := by omega
    have hj' : (i * 64 + j) % 64 = j := by omega
    simp only [digits, hx, hn, hi', hj']
  · cases h

theorem digits_of_lastTwo? {p q r : Char} {b : Bytes} (h : lastTwo? p q r = some b) :
    digits b = [p, q, r, '='] := by
  simp only [lastTwo?, Option.bind_eq_bind, Option.bind_eq_some_iff] at h
  rcases h with ⟨i, hp, j, hq, k, hr, h⟩
  rcases digit_of_value? hp with ⟨hi, rfl⟩
  rcases digit_of_value? hq with ⟨hj, rfl⟩
  rcases digit_of_value? hr with ⟨hk, rfl⟩
  -- The bits left over are zero, so the number is the one that the bytes are written as.
  generalize hm : (i * 64 + j) * 64 + k = m at h
  split at h
  · cases h
    have hx : (UInt8.ofNat (m / 1024)).toNat = m / 1024 := Utf8.toNat_ofNat (by omega)
    have hy : (UInt8.ofNat (m / 4 % 256)).toNat = m / 4 % 256 := Utf8.toNat_ofNat (by omega)
    have hn : (m / 1024 * 256 + m / 4 % 256) * 4 = m := by omega
    have hi' : m / 4096 = i := by omega
    have hj' : m / 64 % 64 = j := by omega
    have hk' : m % 64 = k := by omega
    simp only [digits, hx, hy, hn, hi', hj', hk']
  · cases h

theorem digits_of_three? {p q r s : Char} {b : Bytes} (h : three? p q r s = some b)
    (rest : Bytes) : digits (b ++ rest) = p :: q :: r :: s :: digits rest := by
  simp only [three?, Option.bind_eq_bind, Option.bind_eq_some_iff] at h
  rcases h with ⟨i, hp, j, hq, k, hr, l, hs, h⟩
  rcases digit_of_value? hp with ⟨hi, rfl⟩
  rcases digit_of_value? hq with ⟨hj, rfl⟩
  rcases digit_of_value? hr with ⟨hk, rfl⟩
  rcases digit_of_value? hs with ⟨hl, rfl⟩
  generalize hm : ((i * 64 + j) * 64 + k) * 64 + l = m at h
  cases h
  have hx : (UInt8.ofNat (m / 65536)).toNat = m / 65536 := Utf8.toNat_ofNat (by omega)
  have hy : (UInt8.ofNat (m / 256 % 256)).toNat = m / 256 % 256 := Utf8.toNat_ofNat (by omega)
  have hz : (UInt8.ofNat (m % 256)).toNat = m % 256 := Utf8.toNat_ofNat (by omega)
  have hn : (m / 65536 * 256 + m / 256 % 256) * 256 + m % 256 = m := by omega
  have hi' : m / 262144 = i := by omega
  have hj' : m / 4096 % 64 = j := by omega
  have hk' : m / 64 % 64 = k := by omega
  have hl' : m % 64 = l := by omega
  simp only [List.cons_append, List.nil_append, digits, hx, hy, hz, hn, hi', hj', hk', hl']

/-! ## Whole texts -/

theorem ofDigits?_digits (b : Bytes) : ofDigits? (digits b) = some b := by
  -- Three bytes at a time, with one or two of them at the end.
  induction b using digits.induct with
  | case1 => rfl
  | case2 a =>
      rw [digits, ofDigits?, if_pos rfl, List.isEmpty_nil, if_pos rfl, if_pos rfl]
      exact lastByte?_digits a
  | case3 a b =>
      have hfill := digit_ne_fill (n := (a.toNat * 256 + b.toNat) * 4 % 64) (by omega)
      rw [digits, ofDigits?, if_pos rfl, List.isEmpty_nil, if_pos rfl, if_neg hfill]
      exact lastTwo?_digits a b
  | case4 a b c rest ih =>
      have hfill := digit_ne_fill (n := ((a.toNat * 256 + b.toNat) * 256 + c.toNat) % 64) (by omega)
      rw [digits, ofDigits?, if_neg hfill, three?_digits, ih]
      rfl

/-- The digits that are read are those that are written for the bytes. -/
theorem digits_of_ofDigits? {cs : List Char} {b : Bytes} (h : ofDigits? cs = some b) :
    digits b = cs := by
  induction cs using ofDigits?.induct generalizing b with
  | case1 =>
      cases h
      rfl
  | case2 p q rest hrest =>
      rw [ofDigits?, if_pos rfl, if_pos hrest, if_pos rfl] at h
      rw [List.isEmpty_iff.mp hrest]
      exact digits_of_lastByte? h
  | case3 p q r rest hrest hr =>
      rw [ofDigits?, if_pos rfl, if_pos hrest, if_neg hr] at h
      rw [List.isEmpty_iff.mp hrest]
      exact digits_of_lastTwo? h
  | case4 p q r rest hrest =>
      -- Fill before the last digits.
      rw [ofDigits?, if_pos rfl, if_neg hrest] at h
      cases h
  | case5 p q r s rest hs ih =>
      rw [ofDigits?, if_neg hs] at h
      simp only [Option.bind_eq_bind, Option.bind_eq_some_iff, Option.some.injEq] at h
      rcases h with ⟨front, hfront, back, hback, rfl⟩
      rw [digits_of_three? hfront, ih hback]
  | case6 cs hnil hfour =>
      -- One to three digits alone.
      rw [ofDigits?] at h
      · cases h
      · exact hnil
      · exact hfour

/-- A text is read as a byte string exactly if it is what is written for it. -/
theorem decode?_eq_some_iff {s : String} {b : Bytes} : decode? s = some b ↔ s = encode b := by
  unfold decode? encode
  constructor
  · intro h
    rw [digits_of_ofDigits? h, String.ofList_toList]
  · rintro rfl
    rw [String.toList_ofList, ofDigits?_digits]

/-- What is written for a byte string is read as it. -/
theorem decode?_encode (b : Bytes) : decode? (encode b) = some b := decode?_eq_some_iff.mpr rfl

end Base64

end ContractHost
