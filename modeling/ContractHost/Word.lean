/-!
# Clamped Words

Gas, lengths and counters are 64-bit words whose arithmetic stops at the ends of
the range instead of wrapping: a sum too large for a word is the largest word, a
difference below zero is zero. Every operation here computes the exact natural
number first and then clamps it, so a law about a chain of them is a law about
`min` and natural-number arithmetic.

## Main definitions

* `Word.top`: The largest word, as a natural number.
* `Word.clamp`: The word nearest to a natural number.
* `Word.add`, `Word.sub`, `Word.mul`: Clamped arithmetic.

## Theorems

* `Word.toNat_clamp`: Clamping is a minimum with `top`.
* `Word.add_clamp`, `Word.mul_clamp`: Sums and products of clamped numbers.
* `Word.clamp_le_clamp`: Clamping keeps the order.
* `Word.zero_add`, `Word.sub_self`: Sums and differences that change nothing.
* `Word.toNat_add`, `Word.toNat_sub`, `Word.toNat_mul`: Each operation through
  natural numbers.
-/

namespace ContractHost

namespace Word

/-- The largest 64-bit word. -/
def top : Nat := UInt64.size - 1

/-- The word nearest to `n`: itself when it fits, `top` otherwise. -/
def clamp (n : Nat) : UInt64 :=
  UInt64.ofNatLT (min n top) (by unfold top UInt64.size; omega)

/-- The sum, or the largest word when the sum does not fit. -/
def add (a b : UInt64) : UInt64 := clamp (a.toNat + b.toNat)

/-- The difference, or zero when it would be negative. -/
def sub (a b : UInt64) : UInt64 := clamp (a.toNat - b.toNat)

/-- The product, or the largest word when the product does not fit. -/
def mul (a b : UInt64) : UInt64 := clamp (a.toNat * b.toNat)

@[simp] theorem toNat_clamp (n : Nat) : (clamp n).toNat = min n top := by
  simp [clamp]

theorem toNat_le_top (a : UInt64) : a.toNat ≤ top := by
  have h := a.toNat_lt
  unfold top UInt64.size
  omega

@[simp] theorem clamp_toNat (a : UInt64) : clamp a.toNat = a := by
  apply UInt64.toNat.inj
  rw [toNat_clamp, Nat.min_eq_left (toNat_le_top a)]

theorem toNat_add (a b : UInt64) : (add a b).toNat = min (a.toNat + b.toNat) top := by
  simp [add]

/-- Clamping twice is clamping once. -/
theorem add_clamp (m n : Nat) : add (clamp m) (clamp n) = clamp (m + n) := by
  apply UInt64.toNat.inj
  rw [toNat_add, toNat_clamp, toNat_clamp, toNat_clamp]
  omega

/-- So it is for products: a factor that has been clamped is multiplied past the top again,
    unless the other one is zero. -/
theorem mul_clamp (m n : Nat) : mul (clamp m) (clamp n) = clamp (m * n) := by
  apply UInt64.toNat.inj
  rw [toNat_clamp, mul, toNat_clamp, toNat_clamp, toNat_clamp]
  rcases Nat.eq_zero_or_pos m with rfl | hm
  · rw [Nat.zero_min, Nat.zero_mul, Nat.zero_mul]
  rcases Nat.eq_zero_or_pos n with rfl | hn
  · rw [Nat.zero_min, Nat.mul_zero, Nat.mul_zero]
  have hleft : m ≤ m * n := Nat.le_mul_of_pos_right m hn
  have hright : n ≤ m * n := Nat.le_mul_of_pos_left n hm
  by_cases hmt : m ≤ top
  · by_cases hnt : n ≤ top
    · rw [Nat.min_eq_left hmt, Nat.min_eq_left hnt]
    · have hover : top ≤ m * top := Nat.le_mul_of_pos_left top hm
      rw [Nat.min_eq_left hmt, Nat.min_eq_right (by omega : top ≤ n)]
      omega
  · have hpos : 0 < min n top := by
      unfold top UInt64.size
      omega
    have hover : top ≤ top * min n top := Nat.le_mul_of_pos_right top hpos
    rw [Nat.min_eq_right (by omega : top ≤ m)]
    omega

theorem clamp_le_clamp {m n : Nat} (h : m ≤ n) : clamp m ≤ clamp n := by
  rw [UInt64.le_iff_toNat_le, toNat_clamp, toNat_clamp]
  omega

theorem zero_add (a : UInt64) : add 0 a = a := by
  rw [add, UInt64.toNat_zero, Nat.zero_add, clamp_toNat]

theorem toNat_mul (a b : UInt64) : (mul a b).toNat = min (a.toNat * b.toNat) top := by
  simp [mul]

/-- A difference of words always fits, so only zero clamps it. -/
theorem toNat_sub (a b : UInt64) : (sub a b).toNat = a.toNat - b.toNat := by
  have h := toNat_le_top a
  rw [sub, toNat_clamp, Nat.min_eq_left (by omega)]

theorem sub_self (a : UInt64) : sub a a = 0 := by
  rw [sub, Nat.sub_self]
  rfl

end Word

end ContractHost
