import ContractHost.Text.Utf8

/-!
# Texts Read Back from Their Bytes

The machine that cuts a byte string into pieces cuts the bytes of a text into its characters, so
a text can be read back from its bytes. A character has one byte to four, and the bounds that
the first of them sets for the second leave the bytes of every character in: what they keep out
are longer forms of smaller characters, surrogates, and numbers beyond the last character.

A byte below 128 is a character of its own and no part of another one. So a delimiter that is
such a byte can be looked for in the bytes as well as in the text.

## Theorems

* `Utf8.scan_two`, `Utf8.scan_three`, `Utf8.scan_four`: The first byte of a longer character.
* `Utf8.scan_more`, `Utf8.scan_last`: The bytes behind it.
* `Utf8.second_bounds_of_three`, `Utf8.second_bounds_of_four`: The bounds leave the second byte
  of every character in.
* `Utf8.scan_utf8EncodeChar`: The bytes of a character are one piece.
* `Utf8.decode?_encode`: A text is read back from its bytes.
* `Utf8.encode_injective`: Different texts have different bytes.
* `Utf8.utf8EncodeChar_ascii`, `Utf8.not_mem_utf8EncodeChar`: Which characters an ASCII byte is
  part of.
-/

namespace ContractHost

namespace Utf8

theorem toNat_ofNat {n : Nat} (h : n < 256) : (UInt8.ofNat n).toNat = n :=
  UInt8.toNat_ofNat_of_lt' h

/-! ## The first byte of a character -/

theorem scan_one {n : Nat} (h : n < 0x80) (rest : Bytes) :
    scan none (UInt8.ofNat n :: rest) = .scalar (Char.ofNat n) :: scan none rest := by
  have hn := toNat_ofNat (n := n) (by omega)
  simp [scan, advance, start, UInt8.lt_iff_toNat_lt, hn, h]

/-- The second byte of a character of two is bounded as any byte behind the first one is. -/
theorem scan_two {n : Nat} (h : 0xc2 ≤ n) (h' : n < 0xe0) (rest : Bytes) :
    scan none (UInt8.ofNat n :: rest) = scan (some ⟨n - 0xc0, 1, 0x80, 0xbf, 1⟩) rest := by
  have hn := toNat_ofNat (n := n) (by omega)
  have hhigh : ¬ n < 0x80 := by omega
  have hlead : ¬ n < 0xc2 := by omega
  simp [scan, advance, start, UInt8.lt_iff_toNat_lt, hn, hhigh, hlead, h']

/-- The second byte of a character of three is bounded from below behind the characters of two,
    and from above before the surrogates. -/
theorem scan_three {n : Nat} (h : 0xe0 ≤ n) (h' : n < 0xf0) (rest : Bytes) :
    scan none (UInt8.ofNat n :: rest) =
      scan (some ⟨n - 0xe0, 2, if n = 0xe0 then 0xa0 else 0x80,
        if n = 0xed then 0x9f else 0xbf, 1⟩) rest := by
  have hn := toNat_ofNat (n := n) (by omega)
  have hhigh : ¬ n < 0x80 := by omega
  have hlead : ¬ n < 0xc2 := by omega
  have hwide : ¬ n < 0xe0 := by omega
  by_cases hfirst : n = 0xe0
  · subst hfirst
    rfl
  · by_cases hlast : n = 0xed
    · subst hlast
      rfl
    · simp [scan, advance, start, UInt8.lt_iff_toNat_lt, ← UInt8.toNat_inj, hn, hhigh, hlead,
        hwide, hfirst, hlast, h']

/-- The second byte of a character of four is bounded from below behind the characters of three,
    and from above behind the last character. -/
theorem scan_four {n : Nat} (h : 0xf0 ≤ n) (h' : n < 0xf5) (rest : Bytes) :
    scan none (UInt8.ofNat n :: rest) =
      scan (some ⟨n - 0xf0, 3, if n = 0xf0 then 0x90 else 0x80,
        if n = 0xf4 then 0x8f else 0xbf, 1⟩) rest := by
  -- There are five such first bytes, and each of them sets bounds that can be evaluated.
  obtain rfl | rfl | rfl | rfl | rfl : n = 0xf0 ∨ n = 0xf1 ∨ n = 0xf2 ∨ n = 0xf3 ∨ n = 0xf4 := by
    omega
  all_goals rfl

/-! ## The bytes behind it -/

/-- A byte within the bounds that is not the last one adds its bits. -/
theorem scan_more {bits missing taken n : Nat} {low high : UInt8} (hlow : low.toNat ≤ n)
    (hhigh : n ≤ high.toNat) (rest : Bytes) :
    scan (some ⟨bits, missing + 2, low, high, taken⟩) (UInt8.ofNat n :: rest) =
      scan (some ⟨bits * 64 + (n - 0x80), missing + 1, 0x80, 0xbf, taken + 1⟩) rest := by
  have hbound := high.toNat_lt
  have hn := toNat_ofNat (n := n) (by omega)
  simp [scan, advance, UInt8.le_iff_toNat_le, hn, hlow, hhigh]

/-- The last byte completes the character. -/
theorem scan_last {bits taken n : Nat} {low high : UInt8} (hlow : low.toNat ≤ n)
    (hhigh : n ≤ high.toNat) (rest : Bytes) :
    scan (some ⟨bits, 1, low, high, taken⟩) (UInt8.ofNat n :: rest) =
      .scalar (Char.ofNat (bits * 64 + (n - 0x80))) :: scan none rest := by
  have hbound := high.toNat_lt
  have hn := toNat_ofNat (n := n) (by omega)
  simp [scan, advance, UInt8.le_iff_toNat_le, hn, hlow, hhigh]

/-- A byte of six bits lies within the bounds that no first byte has narrowed. -/
theorem tail_bounds (v : Nat) :
    (0x80 : UInt8).toNat ≤ v % 64 + 128 ∧ v % 64 + 128 ≤ (0xbf : UInt8).toNat := by
  change 128 ≤ v % 64 + 128 ∧ v % 64 + 128 ≤ 191
  omega

/-- A byte of six bits lies within the bounds for a second byte if it does so behind the first bytes
    that narrow them, one from below and one from above. -/
theorem second_bounds {lead first last : Nat} {low high : UInt8} (v : Nat)
    (hlow : lead = first → low.toNat ≤ v % 64 + 128)
    (hhigh : lead = last → v % 64 + 128 ≤ high.toNat) :
    (if lead = first then low else 0x80 : UInt8).toNat ≤ v % 64 + 128 ∧
      v % 64 + 128 ≤ (if lead = last then high else 0xbf : UInt8).toNat := by
  constructor
  · by_cases hfirst : lead = first
    · rw [if_pos hfirst]
      exact hlow hfirst
    · rw [if_neg hfirst]
      exact (tail_bounds v).1
  · by_cases hlast : lead = last
    · rw [if_pos hlast]
      exact hhigh hlast
    · rw [if_neg hlast]
      exact (tail_bounds v).2

/-- The second byte of a character of three lies within the bounds that the first one sets. The
    lower one would only be missed by a number that takes two bytes, and the upper one by a
    surrogate. -/
theorem second_bounds_of_three {v : Nat} (hlong : 0x7ff < v) (hshort : v ≤ 0xffff)
    (hvalid : v < 0xd800 ∨ 0xdfff < v) :
    (if v / 4096 % 16 + 224 = 0xe0 then 0xa0 else 0x80 : UInt8).toNat ≤ v / 64 % 64 + 128 ∧
      v / 64 % 64 + 128 ≤ (if v / 4096 % 16 + 224 = 0xed then 0x9f else 0xbf : UInt8).toNat := by
  refine second_bounds (v / 64) (fun hfirst => ?_) (fun hlast => ?_)
  · change 160 ≤ v / 64 % 64 + 128
    omega
  · change v / 64 % 64 + 128 ≤ 159
    omega

/-- The same for a character of four. Here it would take a number that fits into three bytes, or
    one beyond the last character. -/
theorem second_bounds_of_four {v : Nat} (hlong : 0xffff < v) (hvalid : v < 0x110000) :
    (if v / 262144 % 8 + 240 = 0xf0 then 0x90 else 0x80 : UInt8).toNat ≤ v / 4096 % 64 + 128 ∧
      v / 4096 % 64 + 128 ≤
        (if v / 262144 % 8 + 240 = 0xf4 then 0x8f else 0xbf : UInt8).toNat := by
  refine second_bounds (v / 4096) (fun hfirst => ?_) (fun hlast => ?_)
  · change 144 ≤ v / 4096 % 64 + 128
    omega
  · change v / 4096 % 64 + 128 ≤ 143
    omega

/-! ## Characters -/

/-- The bytes of a character are one piece, whatever comes behind them. -/
theorem scan_utf8EncodeChar (c : Char) (rest : Bytes) :
    scan none (String.utf8EncodeChar c ++ rest) = .scalar c :: scan none rest := by
  have hback : Char.ofNat c.val.toNat = c := Char.ofNat_toNat c
  have hvalid : c.val.toNat < 0xd800 ∨ 0xdfff < c.val.toNat ∧ c.val.toNat < 0x110000 := c.valid
  unfold String.utf8EncodeChar
  generalize c.val.toNat = v at hback hvalid ⊢
  dsimp only
  rcases tail_bounds v with ⟨hlow, hhigh⟩
  -- In each of the four lengths the bits of the bytes, put together again, are the number.
  split
  · rw [List.singleton_append, scan_one (by omega), hback]
  split
  · rw [List.cons_append, List.singleton_append, scan_two (by omega) (by omega),
      scan_last hlow hhigh,
      show (v / 64 % 32 + 192 - 192) * 64 + (v % 64 + 128 - 128) = v by omega, hback]
  split
  · rcases second_bounds_of_three (v := v) (by omega) (by omega) (by omega) with ⟨hlow', hhigh'⟩
    rw [List.cons_append, List.cons_append, List.singleton_append,
      scan_three (by omega) (by omega), scan_more hlow' hhigh', scan_last hlow hhigh,
      show ((v / 4096 % 16 + 224 - 224) * 64 + (v / 64 % 64 + 128 - 128)) * 64 +
        (v % 64 + 128 - 128) = v by omega, hback]
  · rcases second_bounds_of_four (v := v) (by omega) (by omega) with ⟨hlow', hhigh'⟩
    rcases tail_bounds (v / 64) with ⟨hlow'', hhigh''⟩
    rw [List.cons_append, List.cons_append, List.cons_append, List.singleton_append,
      scan_four (by omega) (by omega), scan_more hlow' hhigh', scan_more hlow'' hhigh'',
      scan_last hlow hhigh,
      show (((v / 262144 % 8 + 240 - 240) * 64 + (v / 4096 % 64 + 128 - 128)) * 64 +
        (v / 64 % 64 + 128 - 128)) * 64 + (v % 64 + 128 - 128) = v by omega, hback]

/-- An ASCII character is its own byte. -/
theorem utf8EncodeChar_ascii {c : Char} (h : c.toNat < 0x80) :
    String.utf8EncodeChar c = [UInt8.ofNat c.toNat] := by
  have hle : c.val.toNat ≤ 127 := Nat.le_of_lt_succ h
  unfold String.utf8EncodeChar
  dsimp only
  rw [if_pos hle]
  rfl

/-- No byte of a longer character is an ASCII byte. -/
theorem not_mem_utf8EncodeChar {c : Char} (h : ¬ c.toNat < 0x80) {b : UInt8} (hb : b < 0x80) :
    b ∉ String.utf8EncodeChar c := by
  have hlong : ¬ c.val.toNat ≤ 127 := fun hle => h (Nat.lt_succ_of_le hle)
  -- All bytes of a longer character are written with the bit that an ASCII byte lacks.
  have hne : ∀ n, 128 ≤ n → n < 256 → b ≠ UInt8.ofNat n := by
    rintro n hlow hhigh rfl
    rw [UInt8.lt_iff_toNat_lt, toNat_ofNat hhigh] at hb
    exact absurd hb (Nat.not_lt.mpr hlow)
  unfold String.utf8EncodeChar
  dsimp only
  rw [if_neg hlong]
  split
  · simp only [List.mem_cons, List.not_mem_nil, or_false, not_or]
    exact ⟨hne _ (by omega) (by omega), hne _ (by omega) (by omega)⟩
  split
  · simp only [List.mem_cons, List.not_mem_nil, or_false, not_or]
    exact ⟨hne _ (by omega) (by omega), hne _ (by omega) (by omega), hne _ (by omega) (by omega)⟩
  · simp only [List.mem_cons, List.not_mem_nil, or_false, not_or]
    exact ⟨hne _ (by omega) (by omega), hne _ (by omega) (by omega), hne _ (by omega) (by omega),
      hne _ (by omega) (by omega)⟩

/-! ## Texts -/

theorem scan_encodeChars_append (cs : List Char) (rest : Bytes) :
    scan none (encodeChars cs ++ rest) = cs.map Piece.scalar ++ scan none rest := by
  induction cs with
  | nil => rfl
  | cons c cs ih =>
      rw [encodeChars, List.flatMap_cons, List.append_assoc, scan_utf8EncodeChar]
      exact congrArg _ ih

theorem scan_encodeChars (cs : List Char) :
    scan none (encodeChars cs) = cs.map Piece.scalar := by
  have h := scan_encodeChars_append cs []
  rw [List.append_nil] at h
  rw [h]
  exact List.append_nil _

/-- Some characters are the first of others exactly if their bytes are the first of the others'. -/
theorem encodeChars_prefix_iff (cs ds : List Char) :
    encodeChars cs <+: encodeChars ds ↔ cs <+: ds := by
  constructor
  · rintro ⟨rest, hrest⟩
    have hpieces := scan_encodeChars ds
    rw [← hrest, scan_encodeChars_append] at hpieces
    -- The pieces are characters, so those at the front are the ones of `cs`.
    rcases List.map_eq_append_iff.mp hpieces.symm with ⟨front, back, hds, hfront, -⟩
    have hcs : front = cs := (List.map_inj_right fun _ _ h => Piece.scalar.inj h).mp hfront
    exact ⟨back, by rw [hds, hcs]⟩
  · rintro ⟨rest, rfl⟩
    exact ⟨encodeChars rest, List.flatMap_append.symm⟩

theorem chars_scalars (cs : List Char) (index : Nat) :
    chars index (cs.map Piece.scalar) = .ok cs := by
  induction cs generalizing index with
  | nil => rfl
  | cons c cs ih =>
      rw [List.map_cons, chars, ih]
      rfl

/-- Some characters are read back from their bytes. -/
theorem decode?_encodeChars (cs : List Char) :
    decode? (encodeChars cs) = some (String.ofList cs) := by
  rw [decode?, decode, pieces, scan_encodeChars, chars_scalars]
  rfl

/-- A text is read back from its bytes. -/
theorem decode?_encode (s : String) : decode? (encode s) = some s := by
  rw [encode, decode?_encodeChars, String.ofList_toList]

/-- Different texts have different bytes. -/
theorem encode_injective : Function.Injective encode := by
  intro s t h
  have hs := decode?_encode s
  rw [h, decode?_encode t, Option.some.injEq] at hs
  exact hs.symm

end Utf8

end ContractHost
