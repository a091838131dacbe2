import Mathlib.Algebra.BigOperators.Group.List.Basic
import Mathlib.Algebra.GroupWithZero.Nat
import ContractHost.Table

/-!
# Tables as Finite Maps

A table lists its entries, but everything that is proved about one speaks of look-ups.
The ascending order of the keys is what makes the two agree: an entry is listed exactly
if a look-up finds it, and two tables with the same look-ups list the same entries.
Equality of tables is therefore decided key by key, which is how changes that undo each
other are recognised.

## Main definitions

* `Table.sumOf`: A sum over the values.

## Theorems

* `Table.mem_entries_iff`: An entry is listed exactly if a look-up finds it.
* `Table.ext_get?`: Tables with the same look-ups are equal.
* `Table.erase_set_of_none`: Setting a new key and removing it changes nothing.
* `Table.size_set_of_none`: A new key makes one more entry.
* `Table.contains_set`, `Table.getD_set`: Which keys there are, and look-ups with a default, after a
  replacement.
* `Table.set_comm`, `Table.put_comm`: Changes of different keys may change places.
* `Table.sumOf_set`, `Table.size_set`: A sum over the values, and how many there are, after a
  replacement.
* `Table.sumOf_erase`: A sum over the values after a removal.
-/

namespace ContractHost

universe u v

variable {κ : Type u} {α : Type v} [LT κ]

theorem TotalKey.ne_of_lt [TotalKey κ] {a b : κ} (h : a < b) : a ≠ b := by
  intro heq
  rw [heq] at h
  exact TotalKey.irrefl b h

namespace Table

variable [DecidableEq κ]

omit [LT κ] in
theorem mem_of_find {k : κ} {x : α} {entries : List (κ × α)}
    (h : find k entries = some x) : (k, x) ∈ entries := by
  induction entries with
  | nil =>
      rw [find] at h
      exact absurd h (by simp only [reduceCtorEq, not_false_eq_true])
  | cons e rest ih =>
      rcases e with ⟨k', x'⟩
      rw [find] at h
      -- The first entry with the key is the one that is found.
      by_cases hk : k = k'
      · rw [if_pos hk, Option.some.injEq] at h
        rw [hk, h]
        exact List.mem_cons_self
      · rw [if_neg hk] at h
        exact List.mem_cons_of_mem _ (ih h)

theorem find_eq_none_of_lt [TotalKey κ] {k : κ} {entries : List (κ × α)}
    (h : ∀ e ∈ entries, k < e.1) : find k entries = none := by
  induction entries with
  | nil => rfl
  | cons e rest ih =>
      rcases e with ⟨k', x'⟩
      have hk : k < k' := h (k', x') List.mem_cons_self
      rw [find, if_neg (TotalKey.ne_of_lt hk)]
      exact ih (fun e he => h e (List.mem_cons_of_mem _ he))

theorem find_of_mem [TotalKey κ] {e : κ × α} {entries : List (κ × α)}
    (hasc : entries.Pairwise fun a b => a.1 < b.1) (h : e ∈ entries) :
    find e.1 entries = some e.2 := by
  induction entries with
  | nil => exact absurd h List.not_mem_nil
  | cons hd rest ih =>
      rcases hd with ⟨k', x'⟩
      rcases List.pairwise_cons.mp hasc with ⟨hhd, hrest⟩
      rcases List.mem_cons.mp h with heq | hmem
      · rw [heq, find, if_pos rfl]
      · -- An entry behind the head has a larger key, so the head is not taken for it.
        have hlt : k' < e.1 := hhd e hmem
        rw [find, if_neg (TotalKey.ne_of_lt hlt).symm]
        exact ih hrest hmem

/-- An entry is listed exactly if a look-up finds it. -/
theorem mem_entries_iff [TotalKey κ] (t : Table κ α) (k : κ) (x : α) :
    (k, x) ∈ t.entries ↔ t.get? k = some x :=
  ⟨fun h => find_of_mem t.ascending h, fun h => mem_of_find h⟩

/-- Two ascending lists of entries with the same look-ups are equal: their first keys
    cannot differ, since the smaller one would be missing from the other list. -/
theorem entries_ext [TotalKey κ] {l m : List (κ × α)}
    (hl : l.Pairwise fun a b => a.1 < b.1) (hm : m.Pairwise fun a b => a.1 < b.1)
    (h : ∀ k, find k l = find k m) : l = m := by
  -- The induction takes the heads off both lists at once, so the other list goes along with it.
  induction l generalizing m with
  | nil =>
      cases m with
      | nil => rfl
      | cons e m =>
          have hfind := h e.1
          rw [find_of_mem hm List.mem_cons_self, find] at hfind
          exact absurd hfind (by simp only [reduceCtorEq, not_false_eq_true])
  | cons e l ih =>
      cases m with
      | nil =>
          have hfind := h e.1
          rw [find_of_mem hl List.mem_cons_self, find] at hfind
          exact absurd hfind (by simp only [reduceCtorEq, not_false_eq_true])
      | cons e' m =>
          rcases List.pairwise_cons.mp hl with ⟨hel, hl'⟩
          rcases List.pairwise_cons.mp hm with ⟨hem, hm'⟩
          have hself := h e.1
          rw [find_of_mem hl List.mem_cons_self] at hself
          have hself' := h e'.1
          rw [find_of_mem hm List.mem_cons_self] at hself'
          -- Either first entry is listed on the other side, at its head or beyond it.
          have hhead : e = e' := by
            rcases List.mem_cons.mp (mem_of_find hself.symm) with heq | hmem
            · exact heq
            · rcases List.mem_cons.mp (mem_of_find hself') with heq' | hmem'
              · exact heq'.symm
              · exact absurd (TotalKey.trans (hem _ hmem) (hel _ hmem'))
                  (TotalKey.irrefl _)
          subst hhead
          have htail : ∀ k, find k l = find k m := by
            intro k
            by_cases hk : k = e.1
            · rw [hk, find_eq_none_of_lt hel, find_eq_none_of_lt hem]
            · have hk' := h k
              rcases e with ⟨j, y⟩
              rw [find, find, if_neg hk, if_neg hk] at hk'
              exact hk'
          rw [ih hl' hm' htail]

/-- A table is determined by its look-ups. -/
theorem ext_get? [TotalKey κ] {t s : Table κ α} (h : ∀ k, t.get? k = s.get? k) :
    t = s := by
  have hentries : t.entries = s.entries := entries_ext t.ascending s.ascending h
  cases t
  cases s
  congr 1

theorem contains_iff (t : Table κ α) (k : κ) : t.contains k = true ↔ ∃ x, t.get? k = some x :=
  Option.isSome_iff_exists

theorem contains_eq_false_iff (t : Table κ α) (k : κ) :
    t.contains k = false ↔ t.get? k = none := by
  unfold contains
  rw [Option.isSome_eq_false_iff, Option.isNone_iff_eq_none]

variable [DecidableLT κ] [TotalKey κ]

theorem get?_set_self (t : Table κ α) (k : κ) (x : α) : (t.set k x).get? k = some x := by
  rw [get?_set, if_pos rfl]

theorem get?_set_of_ne (t : Table κ α) {k k' : κ} (x : α) (h : k' ≠ k) :
    (t.set k x).get? k' = t.get? k' := by
  rw [get?_set, if_neg h]

/-- A key that is set joins the keys that are there. -/
theorem contains_set (t : Table κ α) (k k' : κ) (x : α) :
    (t.set k x).contains k' = true ↔ k' = k ∨ t.contains k' = true := by
  unfold contains
  rw [get?_set]
  by_cases h : k' = k
  · rw [if_pos h]
    exact ⟨fun _ => .inl h, fun _ => rfl⟩
  · rw [if_neg h]
    exact ⟨.inr, fun hor => hor.resolve_left h⟩

theorem getD_set (t : Table κ α) (k k' : κ) (x d : α) :
    (t.set k x).getD k' d = if k' = k then x else t.getD k' d := by
  unfold getD
  rw [get?_set]
  by_cases h : k' = k
  · rw [if_pos h, if_pos h, Option.getD_some]
  · rw [if_neg h, if_neg h]

/-- Of two values set for one key the second counts. -/
theorem set_set (t : Table κ α) (k : κ) (x y : α) : (t.set k x).set k y = t.set k y := by
  apply ext_get?
  intro j
  rw [get?_set, get?_set, get?_set]
  by_cases h : j = k
  · rw [if_pos h, if_pos h]
  · rw [if_neg h, if_neg h, if_neg h]

/-- The table with what is found under a key replaced, by a value or by nothing. -/
def put (t : Table κ α) (k : κ) : Option α → Table κ α
  | some x => t.set k x
  | none => t.erase k

theorem get?_put (t : Table κ α) (k k' : κ) (o : Option α) :
    (t.put k o).get? k' = if k' = k then o else t.get? k' := by
  cases o with
  | none => exact get?_erase t k k'
  | some x => exact get?_set t k k' x

/-- Replacements of different keys may change places. -/
theorem put_comm (t : Table κ α) {k k' : κ} (h : k ≠ k') (o o' : Option α) :
    (t.put k o).put k' o' = (t.put k' o').put k o := by
  apply ext_get?
  intro j
  rw [get?_put, get?_put, get?_put, get?_put]
  by_cases hk : j = k
  · -- The key is one of the two at most, and the other replacement does not touch it.
    rw [if_pos hk, if_pos hk, if_neg (hk ▸ h)]
  · rw [if_neg hk, if_neg hk]

/-- To set what is there already changes nothing. -/
theorem set_of_get? (t : Table κ α) {k : κ} {x : α} (h : t.get? k = some x) :
    t.set k x = t := by
  apply ext_get?
  intro k'
  rw [get?_set]
  by_cases hk : k' = k
  · rw [if_pos hk, hk, h]
  · rw [if_neg hk]

theorem set_comm (t : Table κ α) {k k' : κ} (h : k ≠ k') (x y : α) :
    (t.set k x).set k' y = (t.set k' y).set k x := put_comm t h (some x) (some y)

/-- Setting a key that was not there and removing it again changes nothing. -/
theorem erase_set_of_none (t : Table κ α) {k : κ} (x : α) (h : t.get? k = none) :
    (t.set k x).erase k = t := by
  apply ext_get?
  intro k'
  rw [get?_erase, get?_set]
  by_cases hk : k' = k
  · rw [if_pos hk, hk, h]
  · rw [if_neg hk, if_neg hk]

omit [DecidableLT κ] in
/-- To remove what is not there changes nothing. -/
theorem erase_of_none (t : Table κ α) {k : κ} (h : t.get? k = none) : t.erase k = t := by
  apply ext_get?
  intro k'
  rw [get?_erase]
  by_cases hk : k' = k
  · rw [if_pos hk, hk, h]
  · rw [if_neg hk]

/-- Removing a key and setting it again to what it stood for changes nothing. -/
theorem set_erase_of_get? (t : Table κ α) {k : κ} {x : α} (h : t.get? k = some x) :
    (t.erase k).set k x = t := by
  apply ext_get?
  intro k'
  rw [get?_set, get?_erase]
  by_cases hk : k' = k
  · rw [if_pos hk, hk, h]
  · rw [if_neg hk, if_neg hk]

omit [DecidableLT κ] [TotalKey κ] in
theorem size_erase_le (t : Table κ α) (k : κ) : (t.erase k).size ≤ t.size :=
  List.length_filter_le _ _

/-- The sum of `f` over the values of a table. -/
def sumOf (f : α → Nat) (t : Table κ α) : Nat := (t.values.map f).sum

/-- The value that is put in comes on top of the others, and the one that was there before is no
    longer among them. -/
theorem sum_place (f : α → Nat) (k : κ) (x : α) {entries : List (κ × α)}
    (hasc : entries.Pairwise fun a b => a.1 < b.1) :
    (((place k x entries).map (·.2)).map f).sum + (find k entries).elim 0 f =
      ((entries.map (·.2)).map f).sum + f x := by
  induction entries with
  | nil => exact Nat.add_comm _ _
  | cons e rest ih =>
      rcases e with ⟨k', x'⟩
      rcases List.pairwise_cons.mp hasc with ⟨hhead, hrest⟩
      rw [place]
      by_cases hlt : k < k'
      · -- Nothing has been there: all other keys are larger still.
        have hnone : find k ((k', x') :: rest) = none := by
          apply find_eq_none_of_lt
          intro e he
          rcases List.mem_cons.mp he with rfl | he
          · exact hlt
          · exact TotalKey.trans hlt (hhead e he)
        rw [if_pos hlt, hnone]
        simp only [List.map_cons, List.sum_cons, Option.elim_none]
        omega
      · rw [if_neg hlt]
        by_cases heq : k = k'
        · rw [if_pos heq, find, if_pos heq]
          simp only [List.map_cons, List.sum_cons, Option.elim_some]
          omega
        · -- The change is further down, so the head counts on both sides.
          have htail := ih hrest
          rw [if_neg heq, find, if_neg heq]
          simp only [List.map_cons, List.sum_cons] at htail ⊢
          omega

/-- A value that is set replaces the one that was there in the sum. -/
theorem sumOf_set (f : α → Nat) (t : Table κ α) (k : κ) (x : α) :
    (t.set k x).sumOf f + (t.get? k).elim 0 f = t.sumOf f + f x :=
  sum_place f k x t.ascending

/-- A value that is removed is missing from the sum. -/
theorem sumOf_erase (f : α → Nat) (t : Table κ α) (k : κ) :
    (t.erase k).sumOf f + (t.get? k).elim 0 f = t.sumOf f := by
  cases hfound : t.get? k with
  | none => rw [erase_of_none t hfound, Option.elim_none, Nat.add_zero]
  | some x =>
      -- What has been removed can be put back, which is a replacement of nothing.
      have hback := sumOf_set f (t.erase k) k x
      rw [set_erase_of_get? t hfound, get?_erase, if_pos rfl, Option.elim_none,
        Nat.add_zero] at hback
      exact hback.symm

omit [DecidableLT κ] in
/-- A sum in which nothing counts is zero. -/
theorem sumOf_eq_zero {f : α → Nat} {t : Table κ α} (h : ∀ k x, t.get? k = some x → f x = 0) :
    t.sumOf f = 0 := by
  unfold sumOf values
  rw [List.map_map]
  apply List.sum_eq_zero
  intro n hn
  rcases List.mem_map.mp hn with ⟨e, he, rfl⟩
  exact h e.1 e.2 ((mem_entries_iff t e.1 e.2).mp he)

omit [DecidableEq κ] [DecidableLT κ] [TotalKey κ] in
/-- The values that are picked out add one each. -/
theorem length_filter_values (t : Table κ α) (p : α → Bool) :
    (t.values.filter p).length = t.sumOf fun x => if p x = true then 1 else 0 := by
  unfold sumOf
  induction t.values with
  | nil => rfl
  | cons x rest ih =>
      rw [List.map_cons, List.sum_cons, ← ih]
      by_cases hx : p x = true
      · rw [List.filter_cons_of_pos hx, if_pos hx, List.length_cons, Nat.add_comm]
      · rw [List.filter_cons_of_neg hx, if_neg hx, Nat.zero_add]

omit [DecidableEq κ] [DecidableLT κ] [TotalKey κ] in
theorem sumOf_one (t : Table κ α) : t.sumOf (fun _ => 1) = t.size := by
  unfold sumOf values size
  rw [List.map_const', List.sum_replicate_nat, Nat.mul_one, List.length_map]

/-- A key that is set makes one more entry unless it was there. -/
theorem size_set (t : Table κ α) (k : κ) (x : α) :
    (t.set k x).size = t.size + if t.contains k then 0 else 1 := by
  -- The number of entries is a sum as well.
  have h := sumOf_set (fun _ => 1) t k x
  rw [sumOf_one, sumOf_one] at h
  unfold contains
  cases hfound : t.get? k with
  | none =>
      rw [hfound] at h
      exact h
  | some y =>
      rw [hfound] at h
      exact Nat.add_right_cancel h

theorem size_set_of_none (t : Table κ α) {k : κ} (x : α) (h : t.get? k = none) :
    (t.set k x).size = t.size + 1 := by
  rw [size_set, (contains_eq_false_iff t k).mpr h]
  rfl

theorem size_set_le (t : Table κ α) (k : κ) (x : α) : (t.set k x).size ≤ t.size + 1 := by
  rw [size_set]
  split
  · exact Nat.le_succ _
  · exact Nat.le_refl _

end Table

end ContractHost
