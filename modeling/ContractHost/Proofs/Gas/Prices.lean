import ContractHost.Gas.Prices

/-!
# Charges as Clamped Prices

A charge is computed in words, and up to four of the operations on the way may clamp: the sum
of two lengths, the price of the bytes, the flat price before it, and the multiplier. What comes
out is still one clamp of the price in whole numbers, `Prices.exact`.

The reason is that to clamp is to respect sums and products. A sum of numbers that have been
clamped, clamped again, is the clamped sum. For products this is not plain at once, since a
factor may have lost most of itself to the clamp before it is multiplied. But then it is the
largest word, so the product is too large as well, unless the other factor is zero, and then it
does not matter what has been lost.

Clamping keeps the order, and sums and products of whole numbers do, so no charge goes down when
a price or a length goes up.

## Main definitions

* `Charge`: What a price list is asked for.
* `Prices.charge`, `Prices.exact`: The charge in words, and the price in whole numbers.
* `Prices.AtMost`, `Charge.AtMost`: No price and no length is larger.

## Theorems

* `Prices.charge_eq_clamp`: A charge is the price in whole numbers, clamped.
* `Prices.exact_le_exact`: Prices in whole numbers go up with prices and lengths.
* `Prices.charges_clamp_once`: Both, in numbers.
-/

namespace ContractHost

namespace Word

/-- Clamping a summand first makes no difference to a clamped sum. -/
theorem add_clamp_right (a : UInt64) (n : Nat) : add a (clamp n) = clamp (a.toNat + n) := by
  have h := add_clamp a.toNat n
  rwa [clamp_toNat] at h

theorem mul_clamp_right (a : UInt64) (n : Nat) : mul a (clamp n) = clamp (a.toNat * n) := by
  have h := mul_clamp a.toNat n
  rwa [clamp_toNat] at h

theorem mul_clamp_left (m : Nat) (b : UInt64) : mul (clamp m) b = clamp (m * b.toNat) := by
  have h := mul_clamp m b.toNat
  rwa [clamp_toNat] at h

end Word

/-- What a price list is asked for, with the lengths that it depends on. -/
inductive Charge
  | read (key : UInt64)
  | readOutput (bytes : UInt64)
  | write (key value : UInt64)
  | delete
  | iterCreate
  | iterNext
  | address (input : UInt64)

/-- The same charge, for lengths none of which is larger. -/
def Charge.AtMost : Charge → Charge → Prop
  | read k, read k' => k ≤ k'
  | readOutput n, readOutput n' => n ≤ n'
  | write k v, write k' v' => k ≤ k' ∧ v ≤ v'
  | delete, delete => True
  | iterCreate, iterCreate => True
  | iterNext, iterNext => True
  | address n, address n' => n ≤ n'
  | _, _ => False

namespace Prices

/-- No price of the list is larger than in the other one, nor is the multiplier. -/
structure AtMost (p q : Prices) : Prop where
  readFlat : p.readFlat ≤ q.readFlat
  readPerByte : p.readPerByte ≤ q.readPerByte
  writeFlat : p.writeFlat ≤ q.writeFlat
  writePerByte : p.writePerByte ≤ q.writePerByte
  deleteFlat : p.deleteFlat ≤ q.deleteFlat
  iterCreateFlat : p.iterCreateFlat ≤ q.iterCreateFlat
  iterNextFlat : p.iterNextFlat ≤ q.iterNextFlat
  addressPerByte : p.addressPerByte ≤ q.addressPerByte
  multiplier : p.multiplier ≤ q.multiplier

variable (p : Prices)

/-- What is charged. -/
def charge : Charge → UInt64
  | .read key => p.read key
  | .readOutput bytes => p.readOutput bytes
  | .write key value => p.write key value
  | .delete => p.delete
  | .iterCreate => p.iterCreate
  | .iterNext => p.iterNext
  | .address input => p.address input

/-- The price in whole numbers, without the multiplier. -/
def base : Charge → Nat
  | .read key => p.readFlat.toNat + p.readPerByte.toNat * key.toNat
  | .readOutput bytes => p.readPerByte.toNat * bytes.toNat
  | .write key value => p.writeFlat.toNat + p.writePerByte.toNat * (key.toNat + value.toNat)
  | .delete => p.deleteFlat.toNat
  | .iterCreate => p.iterCreateFlat.toNat
  | .iterNext => p.iterNextFlat.toNat
  | .address input => p.addressPerByte.toNat * input.toNat

/-- The price in whole numbers. -/
def exact (c : Charge) : Nat := p.base c * p.multiplier.toNat

theorem scaled_clamp (n : Nat) : p.scaled (Word.clamp n) = Word.clamp (n * p.multiplier.toNat) :=
  Word.mul_clamp_left n p.multiplier

/-- What is charged is the price in whole numbers, clamped once. -/
theorem charge_eq_clamp (c : Charge) : p.charge c = Word.clamp (p.exact c) := by
  -- Every operation computes a whole number and clamps it, so the innermost one is a clamp already.
  cases c with
  | read key =>
      change p.scaled (Word.add p.readFlat (Word.clamp (p.readPerByte.toNat * key.toNat))) = _
      rw [Word.add_clamp_right, scaled_clamp]
      rfl
  | readOutput bytes => exact p.scaled_clamp (p.readPerByte.toNat * bytes.toNat)
  | write key value =>
      change p.scaled (Word.add p.writeFlat
        (Word.mul p.writePerByte (Word.clamp (key.toNat + value.toNat)))) = _
      rw [Word.mul_clamp_right, Word.add_clamp_right, scaled_clamp]
      rfl
  | delete => rfl
  | iterCreate => rfl
  | iterNext => rfl
  | address input => exact p.scaled_clamp (p.addressPerByte.toNat * input.toNat)

variable {p} {q : Prices}

/-- Sums and products of larger prices and lengths are larger. -/
theorem base_le_base (h : p.AtMost q) {c c' : Charge} (hc : c.AtMost c') :
    p.base c ≤ q.base c' := by
  have hword : ∀ {a b : UInt64}, a ≤ b → a.toNat ≤ b.toNat := UInt64.le_iff_toNat_le.mp
  -- Charges of different kinds are not compared.
  cases c <;> cases c' <;> try exact hc.elim
  case read.read =>
    exact Nat.add_le_add (hword h.readFlat) (Nat.mul_le_mul (hword h.readPerByte) (hword hc))
  case readOutput.readOutput => exact Nat.mul_le_mul (hword h.readPerByte) (hword hc)
  case write.write =>
    exact Nat.add_le_add (hword h.writeFlat) (Nat.mul_le_mul (hword h.writePerByte)
      (Nat.add_le_add (hword hc.1) (hword hc.2)))
  case delete.delete => exact hword h.deleteFlat
  case iterCreate.iterCreate => exact hword h.iterCreateFlat
  case iterNext.iterNext => exact hword h.iterNextFlat
  case address.address => exact Nat.mul_le_mul (hword h.addressPerByte) (hword hc)

/-- So is the price, since the multiplier is no smaller. -/
theorem exact_le_exact (h : p.AtMost q) {c c' : Charge} (hc : c.AtMost c') :
    p.exact c ≤ q.exact c' :=
  Nat.mul_le_mul (base_le_base h hc) (UInt64.le_iff_toNat_le.mp h.multiplier)

/-- Every charge is the price in whole numbers, or the largest word if that does not fit,
    whatever the operations on the way have clamped and also at a multiplier of zero. So it goes
    up with every price, the multiplier included, and with every length. -/
theorem charges_clamp_once :
    (∀ (p : Prices) (c : Charge), (p.charge c).toNat = min (UInt64.size - 1) (p.exact c)) ∧
      ∀ (p q : Prices) (c c' : Charge), p.AtMost q → c.AtMost c' → p.charge c ≤ q.charge c' := by
  constructor
  · intro p c
    rw [charge_eq_clamp, Word.toNat_clamp, Nat.min_comm]
    rfl
  · intro p q c c' h hc
    rw [charge_eq_clamp, charge_eq_clamp]
    exact Word.clamp_le_clamp (exact_le_exact h hc)

-- What has been clamped on the way is still multiplied by zero.
example : { free with readFlat := 1, readPerByte := 0x100000000, multiplier := 0 }.charge
    (.read 0x100000000) = 0 := by decide

end Prices

end ContractHost
