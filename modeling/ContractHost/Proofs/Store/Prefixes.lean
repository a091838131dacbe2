import ContractHost.Store.Scope
import ContractHost.Table
import Mathlib.Order.Bounds.Defs

/-!
# Keys below a Prefix

In the order of byte strings the keys that start with a prefix stand together. They begin
with the prefix itself, and they end before `Scope.upper` of it, if there is a key above
all of them at all. So a scope is a range of the store that it belongs to, and the range
holds no foreign key.

A bound of the scope, with the prefix before it, cuts off keys of the scope only. Putting
the prefix before a key keeps the order, so nothing changes places either.

`Scope.upper` is the only key that could be the end of such a range. A lower one, if it still
comes after the prefix, starts with the prefix itself, so it is no bound. And where there is
no `Scope.upper`, there is no bound at all: a key that comes after the prefix then starts with
it, however large it is.

## Main definitions

* `Scope.Above`: A key above all keys that start with a prefix.

## Theorems

* `Bytes.append_lt_append_iff`: A prefix keeps the order.
* `Bytes.not_append_lt`: A key that starts with a prefix does not come before it.
* `Bytes.prefix_of_lt_append`: A key between a prefix and an extension starts with it.
* `Scope.append_lt_upper`: The keys of a scope lie below its upper bound.
* `Scope.prefix_of_lt_upper`, `Scope.prefix_of_upper_eq_none`: Every key from the prefix on
  that is below the bound, or that has no bound, is a key of the scope.
* `Scope.upper_eq_none_iff`: Which prefixes have no bound.
* `Scope.upper_isLeast_above`: The bound is the least key above the scope.
-/

namespace ContractHost

namespace Bytes

/-- The same bytes in front make no difference to the order. -/
theorem append_lt_append_iff (pre a b : Bytes) : pre ++ a < pre ++ b ↔ a < b := by
  induction pre with
  | nil => rfl
  | cons p pre ih =>
      rw [List.cons_append, List.cons_append, List.cons_lt_cons_iff, ih]
      constructor
      · rintro (hlt | ⟨-, h⟩)
        · exact absurd hlt (UInt8.lt_irrefl p)
        · exact h
      · exact fun h => Or.inr ⟨rfl, h⟩

/-- A prefix is the least of the keys that start with it. -/
theorem not_append_lt (pre b : Bytes) : ¬ pre ++ b < pre := by
  intro h
  have hnil : b < [] := by
    rw [← append_lt_append_iff pre b [], List.append_nil]
    exact h
  exact absurd hnil (List.not_lt_nil b)

/-- A key before a prefix comes before all keys that start with it. -/
theorem lt_append_of_lt {key pre : Bytes} (h : key < pre) (e : Bytes) : key < pre ++ e := by
  refine Decidable.byContradiction (fun hge => ?_)
  by_cases hgt : pre ++ e < key
  · exact not_append_lt pre e (List.lt_trans hgt h)
  · -- The order is total, so the key is the extension itself, which does not come before.
    rw [TotalKey.connected hge hgt] at h
    exact not_append_lt pre e h

/-- A key that is neither before a prefix nor after all its extensions starts with it. -/
theorem prefix_of_lt_append {pre key e : Bytes} (hlow : ¬ key < pre) (hlt : key < pre ++ e) :
    pre <+: key := by
  induction pre generalizing key with
  | nil => exact List.nil_prefix
  | cons p pre ih =>
      cases key with
      | nil => exact absurd (List.nil_lt_cons p pre) hlow
      | cons x key =>
          rw [List.cons_lt_cons_iff] at hlow
          rw [List.cons_append, List.cons_lt_cons_iff] at hlt
          -- The first bytes have to be the same, for the key is neither smaller there nor larger.
          rcases hlt with hx | ⟨rfl, hrest⟩
          · exact absurd (Or.inl hx) hlow
          · rw [List.prefix_cons_inj]
            exact ih (fun h => hlow (Or.inr ⟨rfl, h⟩)) hrest

end Bytes

namespace Scope

theorem toNat_add_one {b : UInt8} (hb : b < 255) : (b + 1).toNat = b.toNat + 1 := by
  -- The addition of bytes wraps, but not below the largest byte.
  have h : b.toNat < 255 := UInt8.lt_iff_toNat_lt.mp hb
  rw [UInt8.toNat_add]
  change (b.toNat + 1) % 256 = b.toNat + 1
  omega

theorem upper_cons_of_some {b : UInt8} {pre stop : Bytes} (h : upper pre = some stop) :
    upper (b :: pre) = some (b :: stop) := by
  rw [upper, h]

/-- The bound of a prefix comes from the bound of its rest, or, if that has none, from its
    first byte. -/
theorem upper_cons_of_none {b : UInt8} {pre : Bytes} (h : upper pre = none) :
    upper (b :: pre) = if b < 255 then some [b + 1] else none := by
  rw [upper, h]

/-- The bound lies above all keys that start with the prefix. -/
theorem append_lt_upper {pre stop : Bytes} (h : upper pre = some stop) (k : Bytes) :
    pre ++ k < stop := by
  induction pre generalizing stop with
  | nil => cases h
  | cons b pre ih =>
      cases hpre : upper pre with
      | some rest =>
          -- A byte behind the first one can be raised, so the first one stays.
          rw [upper_cons_of_some hpre, Option.some.injEq] at h
          rw [← h, List.cons_append, List.cons_lt_cons_iff]
          exact Or.inr ⟨rfl, ih hpre⟩
      | none =>
          -- All bytes behind the first one are at their largest, so it is raised itself.
          rw [upper_cons_of_none hpre] at h
          by_cases hb : b < 255
          · rw [if_pos hb, Option.some.injEq] at h
            rw [← h, List.cons_append, List.cons_lt_cons_iff]
            refine Or.inl ?_
            rw [UInt8.lt_iff_toNat_lt, toNat_add_one hb]
            exact Nat.lt_succ_self _
          · rw [if_neg hb] at h
            cases h

/-- Without a bound nothing lies above the keys that start with the prefix. -/
theorem prefix_of_upper_eq_none {pre key : Bytes} (hlow : ¬ key < pre) (h : upper pre = none) :
    pre <+: key := by
  induction pre generalizing key with
  | nil => exact List.nil_prefix
  | cons b pre ih =>
      cases key with
      | nil => exact absurd (List.nil_lt_cons b pre) hlow
      | cons x key =>
          cases hpre : upper pre with
          | some rest =>
              rw [upper_cons_of_some hpre] at h
              cases h
          | none =>
              rw [upper_cons_of_none hpre] at h
              by_cases hb : b < 255
              · rw [if_pos hb] at h
                cases h
              · -- No byte lies above the first one, so the key cannot have left the prefix.
                rw [List.cons_lt_cons_iff] at hlow
                have hx : x = b := by
                  have hxb : ¬ x < b := fun hlt => hlow (Or.inl hlt)
                  rw [UInt8.lt_iff_toNat_lt] at hb hxb
                  change ¬ b.toNat < 255 at hb
                  have hfits := x.toNat_lt
                  exact UInt8.toNat.inj (by omega)
                subst hx
                rw [List.prefix_cons_inj]
                exact ih (fun hlt => hlow (Or.inr ⟨rfl, hlt⟩)) hpre

/-- From the prefix on, only keys that start with it lie below the bound. -/
theorem prefix_of_lt_upper {pre key stop : Bytes} (hlow : ¬ key < pre)
    (h : upper pre = some stop) (hlt : key < stop) : pre <+: key := by
  induction pre generalizing key stop with
  | nil => cases h
  | cons b pre ih =>
      cases key with
      | nil => exact absurd (List.nil_lt_cons b pre) hlow
      | cons x key =>
          rw [List.cons_lt_cons_iff] at hlow
          cases hpre : upper pre with
          | some rest =>
              rw [upper_cons_of_some hpre, Option.some.injEq] at h
              rw [← h, List.cons_lt_cons_iff] at hlt
              rcases hlt with hx | ⟨rfl, hrest⟩
              · exact absurd (Or.inl hx) hlow
              · rw [List.prefix_cons_inj]
                exact ih (fun hlt => hlow (Or.inr ⟨rfl, hlt⟩)) hpre hrest
          | none =>
              rw [upper_cons_of_none hpre] at h
              by_cases hb : b < 255
              · rw [if_pos hb, Option.some.injEq] at h
                rw [← h, List.cons_lt_cons_iff] at hlt
                rcases hlt with hx | ⟨-, hrest⟩
                · -- Between the first byte and the one above it there is no other.
                  have hx : x = b := by
                    have hxb : ¬ x < b := fun hlt => hlow (Or.inl hlt)
                    rw [UInt8.lt_iff_toNat_lt] at hxb
                    rw [UInt8.lt_iff_toNat_lt, toNat_add_one hb] at hx
                    exact UInt8.toNat.inj (by omega)
                  subst hx
                  rw [List.prefix_cons_inj]
                  exact prefix_of_upper_eq_none (fun hlt => hlow (Or.inr ⟨rfl, hlt⟩)) hpre
                · exact absurd hrest (List.not_lt_nil key)
              · rw [if_neg hb] at h
                cases h

/-- There is no bound exactly if no byte of the prefix can be raised. -/
theorem upper_eq_none_iff {pre : Bytes} : upper pre = none ↔ ∀ b ∈ pre, b = 255 := by
  induction pre with
  | nil => exact ⟨fun _ => nofun, fun _ => rfl⟩
  | cons b pre ih =>
      rw [List.forall_mem_cons, ← ih]
      cases hpre : upper pre with
      | some stop =>
          rw [upper_cons_of_some hpre]
          exact ⟨nofun, fun h => nomatch h.2⟩
      | none =>
          rw [upper_cons_of_none hpre]
          by_cases hb : b < 255
          · rw [if_pos hb]
            refine ⟨nofun, fun h => ?_⟩
            rw [h.1] at hb
            exact absurd hb (UInt8.lt_irrefl 255)
          · rw [if_neg hb]
            refine ⟨fun _ => ⟨?_, rfl⟩, fun _ => rfl⟩
            -- A byte that cannot be raised is the largest one.
            have hfits := b.toNat_lt
            rw [UInt8.lt_iff_toNat_lt] at hb
            change ¬ b.toNat < 255 at hb
            exact UInt8.toNat.inj (show b.toNat = 255 by omega)

/-- The key lies above every key that starts with the prefix. -/
def Above (pre key : Bytes) : Prop := ∀ k, pre <+: k → k < key

theorem above_upper {pre stop : Bytes} (h : upper pre = some stop) : Above pre stop := by
  rintro k ⟨rest, rfl⟩
  exact append_lt_upper h rest

/-- The prefix starts with itself, so what lies above all keys of the scope comes after it. -/
theorem Above.not_lt {pre key : Bytes} (h : Above pre key) : ¬ key < pre :=
  fun hlt => List.lt_irrefl key (List.lt_trans hlt (h pre (List.prefix_refl pre)))

theorem Above.not_prefix {pre key : Bytes} (h : Above pre key) : ¬ pre <+: key :=
  fun hpre => List.lt_irrefl key (h key hpre)

/-- If a prefix has a bound, a key from the prefix on starts with it exactly if it lies below the
    bound, and the bound is the least key above all keys that start with the prefix. A prefix has
    no bound exactly if there is no key above all of these, which is to say if it is empty or has
    no byte below 255, and then every key from the prefix on starts with it. -/
theorem upper_isLeast_above (pre : Bytes) :
    (∀ stop, upper pre = some stop →
      (∀ key, pre ≤ key → (pre <+: key ↔ key < stop)) ∧ IsLeast {key | Above pre key} stop) ∧
    (upper pre = none ↔ ¬ ∃ key, Above pre key) ∧
    (upper pre = none ↔ ∀ b ∈ pre, b = 255) ∧
    (upper pre = none → ∀ key, pre ≤ key → pre <+: key) := by
  refine ⟨fun stop hstop => ⟨fun key hlow => ?_, above_upper hstop, ?_⟩, ?_, upper_eq_none_iff,
    fun hnone key hlow => prefix_of_upper_eq_none hlow hnone⟩
  · exact ⟨above_upper hstop key, prefix_of_lt_upper hlow hstop⟩
  · -- A lower key above the scope would start with the prefix, and so be a key of the scope.
    intro key habove hlt
    exact habove.not_prefix (prefix_of_lt_upper habove.not_lt hstop hlt)
  · constructor
    · rintro hnone ⟨key, habove⟩
      exact habove.not_prefix (prefix_of_upper_eq_none habove.not_lt hnone)
    · intro hnone
      cases hstop : upper pre with
      | none => rfl
      | some stop => exact absurd ⟨stop, above_upper hstop⟩ hnone

end Scope

end ContractHost
