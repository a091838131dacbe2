/-!
# Ordered Tables

A table maps keys to values and lists its entries in ascending order of their
keys, each key once. The order is part of the type, so a table is determined by
its look-ups and a listing of it is the same however it was built.

## Main definitions

* `TotalKey`: Keys in a strict total order.
* `Table`: A finite map with its entries in ascending key order.
* `Table.get?`, `Table.set`, `Table.erase`: Look-up, replacement and removal.
* `Table.getD`: Look-up with a value for absent keys.
* `Table.ofList`: The table built by setting pairs from left to right.
* `Table.size`, `Table.keys`, `Table.values`: Views of the entries.
* `Table.fresh`: A number above every key of a table of numbers.

## Theorems

* `Table.get?_set`: A look-up after a replacement.
* `Table.get?_erase`: A look-up after a removal.
-/

namespace ContractHost

universe u v

/-- Keys in a strict total order: no key comes before itself, `<` is transitive, and of two
    different keys one comes before the other. -/
class TotalKey (κ : Type u) [LT κ] : Prop where
  irrefl (a : κ) : ¬ a < a
  trans {a b c : κ} : a < b → b < c → a < c
  connected {a b : κ} : ¬ a < b → ¬ b < a → a = b

instance : TotalKey Nat where
  irrefl := Nat.lt_irrefl
  trans := Nat.lt_trans
  connected h k := by omega

instance : TotalKey UInt64 where
  irrefl _ := UInt64.lt_irrefl _
  trans := UInt64.lt_trans
  connected h k := UInt64.le_antisymm (UInt64.not_lt.mp k) (UInt64.not_lt.mp h)

instance : TotalKey String where
  irrefl _ := String.lt_irrefl _
  trans := String.lt_trans
  connected h k := String.le_antisymm (String.not_lt.mp k) (String.not_lt.mp h)

instance : TotalKey (List UInt8) where
  irrefl _ := List.lt_irrefl _
  trans := List.lt_trans
  connected h k := List.le_antisymm (List.not_lt.mp k) (List.not_lt.mp h)

/-- A finite map whose entries are listed in ascending order of their keys. -/
structure Table (κ : Type u) (α : Type v) [LT κ] where
  /-- The entries, by ascending key. -/
  entries : List (κ × α)
  /-- No key comes twice or out of order. -/
  ascending : entries.Pairwise fun a b => a.1 < b.1

namespace Table

variable {κ : Type u} {α : Type v} [LT κ]

/-- The table without entries. -/
def empty : Table κ α := ⟨[], .nil⟩

instance : EmptyCollection (Table κ α) := ⟨empty⟩

instance : Inhabited (Table κ α) := ⟨empty⟩

/-- The number of entries. -/
def size (t : Table κ α) : Nat := t.entries.length

/-- The keys in ascending order. -/
def keys (t : Table κ α) : List κ := t.entries.map (·.1)

/-- The values in the order of their keys. -/
def values (t : Table κ α) : List α := t.entries.map (·.2)

/-- A number that is no key of the table and lies above all of them. -/
def fresh (t : Table Nat α) : Nat :=
  match t.entries.getLast? with
  | some (k, _) => k + 1
  | none => 0

section Lookup

variable [DecidableEq κ]

/-- The value of the first entry for `k` in a list of entries. -/
def find (k : κ) : List (κ × α) → Option α
  | [] => none
  | (k', x) :: rest => if k = k' then some x else find k rest

/-- The value stored under `k`. -/
def get? (t : Table κ α) (k : κ) : Option α := find k t.entries

/-- The value stored under `k`, or `default` when there is none. -/
def getD (t : Table κ α) (k : κ) (default : α) : α := (t.get? k).getD default

/-- Whether `k` has an entry. -/
def contains (t : Table κ α) (k : κ) : Bool := (t.get? k).isSome

/-- The entries other than those for `k`. -/
def drop (k : κ) (entries : List (κ × α)) : List (κ × α) :=
  entries.filter fun e => e.1 ≠ k

/-- The table without an entry for `k`. -/
def erase (t : Table κ α) (k : κ) : Table κ α :=
  ⟨drop k t.entries, t.ascending.filter _⟩

end Lookup

section Replace

variable [DecidableEq κ] [DecidableLT κ]

/-- Puts an entry at its place, in the stead of one with the same key. -/
def place (k : κ) (x : α) : List (κ × α) → List (κ × α)
  | [] => [(k, x)]
  | (k', x') :: rest =>
    if k < k' then (k, x) :: (k', x') :: rest
    else if k = k' then (k, x) :: rest
    else (k', x') :: place k x rest

theorem mem_place {k : κ} {x : α} {e : κ × α} {entries : List (κ × α)}
    (h : e ∈ place k x entries) : e = (k, x) ∨ e ∈ entries := by
  induction entries with
  | nil => simpa [place] using h
  | cons hd rest ih =>
    obtain ⟨k', x'⟩ := hd
    rw [place] at h
    split at h
    · simpa using h
    · split at h
      · rcases List.mem_cons.mp h with h | h
        · exact .inl h
        · exact .inr (List.mem_cons_of_mem _ h)
      · rcases List.mem_cons.mp h with h | h
        · exact .inr (by simp [h])
        · rcases ih h with h | h
          · exact .inl h
          · exact .inr (List.mem_cons_of_mem _ h)

variable [TotalKey κ]

theorem ascending_place (k : κ) (x : α) {entries : List (κ × α)}
    (h : entries.Pairwise fun a b => a.1 < b.1) :
    (place k x entries).Pairwise fun a b => a.1 < b.1 := by
  induction entries with
  | nil => simp [place]
  | cons hd rest ih =>
    obtain ⟨k', x'⟩ := hd
    obtain ⟨hhd, hrest⟩ := List.pairwise_cons.mp h
    rw [place]
    split
    · next hlt =>
      refine List.pairwise_cons.mpr ⟨fun e he => ?_, h⟩
      rcases List.mem_cons.mp he with he | he
      · exact he ▸ hlt
      · exact TotalKey.trans hlt (hhd e he)
    · next hge =>
      split
      · next heq => exact List.pairwise_cons.mpr ⟨fun e he => heq ▸ hhd e he, hrest⟩
      · next hne =>
        refine List.pairwise_cons.mpr ⟨fun e he => ?_, ih hrest⟩
        rcases mem_place he with he | he
        · -- Neither before `k'` nor equal to it, so `k` comes after it.
          refine Classical.byContradiction fun hnot => hne ?_
          exact TotalKey.connected hge (by simpa [he] using hnot)
        · exact hhd e he

/-- The table in which `k` stands for `x`. -/
def set (t : Table κ α) (k : κ) (x : α) : Table κ α :=
  ⟨place k x t.entries, ascending_place k x t.ascending⟩

/-- The table built from pairs, a later pair replacing an earlier one. -/
def ofList (pairs : List (κ × α)) : Table κ α :=
  pairs.foldl (fun t e => t.set e.1 e.2) empty

end Replace

section Laws

variable [DecidableEq κ]

@[simp] theorem get?_empty (k : κ) : (empty : Table κ α).get? k = none := rfl

omit [LT κ] in
theorem find_drop (k k' : κ) (entries : List (κ × α)) :
    find k' (drop k entries) = if k' = k then none else find k' entries := by
  induction entries with
  | nil => simp [drop, find]
  | cons hd rest ih =>
    obtain ⟨j, y⟩ := hd
    rw [drop] at ih ⊢
    by_cases hj : j = k
    · subst hj
      simp only [ne_eq, not_true, decide_false, Bool.false_eq_true, not_false_eq_true,
        List.filter_cons_of_neg, ih, find]
      -- What has been dropped is not found, and other keys pass over it.
      by_cases h : k' = j
      · rw [if_pos h, if_pos h]
      · rw [if_neg h, if_neg h, if_neg h]
    · simp only [ne_eq, hj, not_false_eq_true, decide_true, List.filter_cons_of_pos, find, ih]
      split
      · next h => simp [h, hj]
      · rfl

theorem get?_erase (t : Table κ α) (k k' : κ) :
    (t.erase k).get? k' = if k' = k then none else t.get? k' :=
  find_drop k k' t.entries

variable [DecidableLT κ]

theorem find_place (k k' : κ) (x : α) (entries : List (κ × α)) :
    find k' (place k x entries) = if k' = k then some x else find k' entries := by
  induction entries with
  | nil => simp [place, find]
  | cons hd rest ih =>
    obtain ⟨j, y⟩ := hd
    rw [place]
    split
    · simp [find]
    · split
      · next hk =>
        subst hk
        simp only [find]
        -- The old entry of the key has made room for the new one.
        by_cases h : k' = k
        · rw [if_pos h, if_pos h]
        · rw [if_neg h, if_neg h, if_neg h]
      · next hk =>
        simp only [find, ih]
        by_cases h : k' = j
        · simp [h, Ne.symm hk]
        · simp [h]

variable [TotalKey κ]

theorem get?_set (t : Table κ α) (k k' : κ) (x : α) :
    (t.set k x).get? k' = if k' = k then some x else t.get? k' :=
  find_place k k' x t.entries

end Laws

end Table

end ContractHost
