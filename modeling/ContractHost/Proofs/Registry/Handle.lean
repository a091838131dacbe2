import ContractHost.Call.Registry
import ContractHost.Proofs.Table
import Mathlib.Data.List.Nodup
import Mathlib.Data.List.Perm.Subperm
import Mathlib.Data.Nat.Find
import Mathlib.Logic.Function.Iterate

/-!
# Free Handles

The counter of the registry is a word that wraps, so that it only ever grows is no
reason why a new handle is new. What makes it new is the search that passes over live
handles, and the search stops because there are more words than live calls: the words
it passes over are pairwise different, and each of them is the handle of a live call.

That count of live calls is also why the number of tries may be limited. The limit is there for
the definition to be a recursion, and nothing else: `Registry.Searches` is the search without
it, and comes to the same as soon as there is a free handle anywhere.

## Main definitions

* `Registry.ahead`: The words other than zero, in a circle.
* `Registry.Searches`: The search without a limit.

## Theorems

* `Registry.toNat_iterate_successor`: Where the cycle of words is after some steps.
* `Registry.iterate_successor_inj`: The cycle visits every word other than zero once.
* `Registry.contains_of_search`: A search that ends at a live handle passed over live
  handles only.
* `Registry.length_le_size`: A search passes over no more handles than there are live calls.
* `Registry.search_free`: With fewer live calls than words, the search finds a free handle.
* `Registry.search_eq`, `Registry.searches_of_free`: Where the search ends, with a limit and
  without.
* `Registry.allocate_finds_first`: A new handle is the first one that is free.
-/

namespace ContractHost

namespace Registry

/-- The counter never stands at zero. -/
theorem successor_ne_zero (id : UInt64) : successor id ≠ 0 := by
  unfold successor
  by_cases h : id + 1 = 0
  · rw [if_pos h]
    decide
  · rw [if_neg h]
    exact h

/-- The word behind the largest is one. -/
theorem toNat_successor (id : UInt64) (h : id ≠ 0) :
    (successor id).toNat = id.toNat % Word.top + 1 := by
  have hpos : id.toNat ≠ 0 := by
    intro hz
    exact h (UInt64.toNat.inj (by rw [hz]; rfl))
  have hlt := id.toNat_lt
  have hadd : (id + 1).toNat = (id.toNat + 1) % 2 ^ 64 := UInt64.toNat_add id 1
  unfold successor Word.top UInt64.size
  -- The word behind the largest is zero, which is passed over.
  by_cases hz : id + 1 = 0
  · rw [hz] at hadd
    have hzero : (0 : UInt64).toNat = 0 := rfl
    have hone : (1 : UInt64).toNat = 1 := rfl
    rw [if_pos hz, hone]
    omega
  · have hne : (id + 1).toNat ≠ 0 := by
      intro hc
      exact hz (UInt64.toNat.inj (by rw [hc]; rfl))
    rw [if_neg hz]
    omega

/-- The words other than zero form one cycle, so after `n` steps from `id` the cycle is
    `n` places further, counted from one. -/
theorem toNat_iterate_successor (id : UInt64) (h : id ≠ 0) (n : Nat) :
    (successor^[n] id).toNat = (id.toNat - 1 + n) % Word.top + 1 := by
  have hpos : id.toNat ≠ 0 := by
    intro hz
    exact h (UInt64.toNat.inj (by rw [hz]; rfl))
  have hlt := id.toNat_lt
  induction n with
  | zero =>
      rw [Function.iterate_zero_apply]
      unfold Word.top UInt64.size
      omega
  | succ n ih =>
      have hne : successor^[n] id ≠ 0 := by
        cases n with
        | zero => exact h
        | succ m =>
            rw [Function.iterate_succ_apply']
            exact successor_ne_zero _
      rw [Function.iterate_succ_apply', toNat_successor _ hne, ih]
      unfold Word.top UInt64.size
      omega

/-- The cycle does not come back to a word before it has been through all of them. -/
theorem iterate_successor_inj (id : UInt64) (h : id ≠ 0) {i j : Nat}
    (hi : i < Word.top) (hj : j < Word.top)
    (heq : successor^[i] id = successor^[j] id) : i = j := by
  have htoNat : (successor^[i] id).toNat = (successor^[j] id).toNat := by rw [heq]
  rw [toNat_iterate_successor id h, toNat_iterate_successor id h] at htoNat
  unfold Word.top UInt64.size at *
  omega

theorem search_ne_zero (calls : Table Handle Context) (tries : Nat) {id : UInt64} (hid : id ≠ 0) :
    search calls tries id ≠ 0 := by
  induction tries generalizing id with
  | zero => exact hid
  | succ tries ih =>
      rw [search]
      by_cases h : calls.contains ⟨id⟩ = true
      · rw [if_pos h]
        exact ih (successor_ne_zero id)
      · rw [if_neg h]
        exact hid

/-- A search that ends at a live handle has met live handles only. -/
theorem contains_of_search (calls : Table Handle Context) (tries : Nat) (id : UInt64)
    (h : calls.contains ⟨search calls tries id⟩ = true) :
    ∀ i, i ≤ tries → calls.contains ⟨successor^[i] id⟩ = true := by
  induction tries generalizing id with
  | zero =>
      intro i hi
      rw [Nat.le_zero.mp hi]
      exact h
  | succ tries ih =>
      intro i hi
      rw [search] at h
      by_cases hid : calls.contains ⟨id⟩ = true
      · rw [if_pos hid] at h
        cases i with
        | zero => exact hid
        | succ i =>
            rw [Function.iterate_succ_apply]
            exact ih (successor id) h i (by omega)
      · rw [if_neg hid] at h
        exact absurd h hid

/-- Live calls that the cycle visits one after the other are all different until it closes, so
    it cannot visit more of them than there are. -/
theorem length_le_size (calls : Table Handle Context) {id : UInt64} (hid : id ≠ 0) {n : Nat}
    (hn : n ≤ Word.top) (hlive : ∀ i, i < n → calls.contains ⟨successor^[i] id⟩ = true) :
    n ≤ calls.size := by
  let met : List Handle := (List.range n).map fun i => ⟨successor^[i] id⟩
  have hnodup : met.Nodup := by
    refine List.Nodup.map_on (fun i hi j hj heq => ?_) List.nodup_range
    rw [List.mem_range] at hi hj
    rw [Handle.mk.injEq] at heq
    exact iterate_successor_inj id hid (by omega) (by omega) heq
  -- All of them are live, so they are among the keys.
  have hsubset : met ⊆ calls.keys := by
    intro h hmem
    rcases List.mem_map.mp hmem with ⟨i, hi, rfl⟩
    rw [List.mem_range] at hi
    rcases (Table.contains_iff calls _).mp (hlive i hi) with ⟨c, hc⟩
    exact List.mem_map.mpr ⟨_, (Table.mem_entries_iff calls _ c).mpr hc, rfl⟩
  have hlength := (hnodup.subperm hsubset).length_le
  rw [List.length_map, List.length_range] at hlength
  have hkeys : calls.keys.length = calls.size := List.length_map _
  omega

/-- With fewer live calls than there are words other than zero, the search finds a
    handle that is free. Otherwise it would have met one more live handle than there
    are, all of them different. -/
theorem search_free (calls : Table Handle Context) (id : UInt64) (hid : id ≠ 0)
    (hroom : calls.size < Word.top) :
    calls.get? ⟨search calls calls.size id⟩ = none := by
  rw [← Table.contains_eq_false_iff]
  by_contra hlive
  rw [Bool.not_eq_false] at hlive
  have hall := contains_of_search calls calls.size id hlive
  have hmore : calls.size + 1 ≤ calls.size :=
    length_le_size calls hid hroom (fun i hi => hall i (by omega))
  omega

/-! ## The first free handle -/

/-- The word `n` places after `id`, where the words other than zero stand in a circle. -/
def ahead (id : UInt64) (n : Nat) : UInt64 := UInt64.ofNat ((id.toNat - 1 + n) % Word.top + 1)

theorem toNat_ahead (id : UInt64) (n : Nat) :
    (ahead id n).toNat = (id.toNat - 1 + n) % Word.top + 1 := by
  refine UInt64.toNat_ofNat_of_lt' ?_
  unfold Word.top UInt64.size
  omega

/-- Steps of the counter lead around the circle. -/
theorem iterate_successor_eq {id : UInt64} (h : id ≠ 0) (n : Nat) :
    successor^[n] id = ahead id n :=
  UInt64.toNat.inj ((toNat_iterate_successor id h n).trans (toNat_ahead id n).symm)

theorem ahead_ne_zero (id : UInt64) (n : Nat) : ahead id n ≠ 0 := by
  intro h
  have htoNat := toNat_ahead id n
  rw [h, UInt64.toNat_zero] at htoNat
  omega

/-- The circle leads from every word to every other one. -/
theorem exists_ahead {id free : UInt64} (hid : id ≠ 0) (hfree : free ≠ 0) :
    ∃ n, n < Word.top ∧ ahead id n = free := by
  have hpos : id.toNat ≠ 0 := fun h => hid (UInt64.toNat.inj h)
  have hpos' : free.toNat ≠ 0 := fun h => hfree (UInt64.toNat.inj h)
  have hlt := Word.toNat_le_top id
  have hlt' := Word.toNat_le_top free
  refine ⟨(free.toNat + Word.top - id.toNat) % Word.top, ?_, UInt64.toNat.inj ?_⟩
  · exact Nat.mod_lt _ (by decide)
  · rw [toNat_ahead]
    unfold Word.top UInt64.size at *
    omega

/-- The search as it goes, with nothing to stop it but a free handle. In every round the counter
    moves on from the word that it is at. -/
inductive Searches : Registry → Handle × Registry → Prop
  | free {r : Registry} : r.calls.contains ⟨r.next⟩ = false →
      Searches r (⟨r.next⟩, { r with next := successor r.next })
  | live {r : Registry} {found : Handle × Registry} : r.calls.contains ⟨r.next⟩ = true →
      Searches { r with next := successor r.next } found → Searches r found

/-- A search has one end. -/
theorem Searches.unique {r : Registry} {found found' : Handle × Registry} (h : Searches r found)
    (h' : Searches r found') : found = found' := by
  induction h with
  | free hfree =>
      cases h' with
      | free _ => rfl
      | live hlive _ => exact absurd (hlive.symm.trans hfree) (by decide)
  | live hlive _ ih =>
      cases h' with
      | free hfree => exact absurd (hlive.symm.trans hfree) (by decide)
      | live _ hrest => exact ih hrest

section Passing

variable {calls : Table Handle Context} {n : Nat}

/-- With tries enough the search ends at the first word that is free. -/
theorem search_eq {tries : Nat} {id : UInt64} (htries : n ≤ tries)
    (hlive : ∀ m, m < n → calls.contains ⟨successor^[m] id⟩ = true)
    (hfree : calls.contains ⟨successor^[n] id⟩ = false) :
    search calls tries id = successor^[n] id := by
  induction n generalizing tries id with
  | zero =>
      cases tries with
      | zero => rfl
      | succ tries =>
          rw [Function.iterate_zero_apply] at hfree ⊢
          rw [search, if_neg (by rw [hfree]; exact Bool.false_ne_true)]
  | succ n ih =>
      cases tries with
      | zero => exact absurd htries (Nat.not_succ_le_zero n)
      | succ tries =>
          -- The first word is taken, and the others are those of a search from the next one.
          have hid : calls.contains ⟨id⟩ = true := hlive 0 (Nat.succ_pos n)
          rw [search, if_pos hid, Function.iterate_succ_apply]
          refine ih (Nat.le_of_succ_le_succ htries) (fun m hm => ?_) hfree
          exact hlive (m + 1) (Nat.succ_lt_succ hm)

/-- Without a bound it ends there too. -/
theorem searches_of_free {r : Registry}
    (hlive : ∀ m, m < n → r.calls.contains ⟨successor^[m] r.next⟩ = true)
    (hfree : r.calls.contains ⟨successor^[n] r.next⟩ = false) :
    Searches r (⟨successor^[n] r.next⟩, { r with next := successor (successor^[n] r.next) }) := by
  induction n generalizing r with
  | zero => exact .free hfree
  | succ n ih =>
      refine .live (hlive 0 (Nat.succ_pos n)) ?_
      exact ih (r := { r with next := successor r.next })
        (fun m hm => hlive (m + 1) (Nat.succ_lt_succ hm)) hfree

end Passing

/-- If the counter is at a word other than zero, and some such word is no live handle, the search
    ends. It hands out the first word around the circle that is no live handle, which is not zero,
    and the counter is left one place further. Nothing else changes. The bound on the tries is
    never felt: what is handed out is what the search comes to without it. -/
theorem allocate_finds_first {r : Registry} (hnext : r.next ≠ 0)
    (hroom : ∃ id : UInt64, id ≠ 0 ∧ r.calls.contains ⟨id⟩ = false) :
    ∃ n, n < Word.top ∧
      r.allocate = (⟨ahead r.next n⟩, { r with next := ahead r.next (n + 1) }) ∧
      (∀ m, m < n → r.calls.contains ⟨ahead r.next m⟩ = true) ∧
      r.calls.contains ⟨ahead r.next n⟩ = false ∧
      ahead r.next n ≠ 0 ∧ ahead r.next (n + 1) ≠ 0 ∧
      ∀ found, Searches r found ↔ found = r.allocate := by
  -- The word that is known to be free need not be the first one.
  have hexists : ∃ n, n < Word.top ∧ r.calls.contains ⟨ahead r.next n⟩ = false := by
    rcases hroom with ⟨id, hid, hfree⟩
    rcases exists_ahead hnext hid with ⟨n, hn, rfl⟩
    exact ⟨n, hn, hfree⟩
  rcases Nat.find_spec hexists with ⟨hn, hfree⟩
  have hmin : ∀ m, m < Nat.find hexists → r.calls.contains ⟨ahead r.next m⟩ = true := by
    intro m hm
    rw [← Bool.not_eq_false]
    exact fun h => Nat.find_min hexists hm ⟨Nat.lt_trans hm hn, h⟩
  generalize Nat.find hexists = n at hn hfree hmin
  simp only [← iterate_successor_eq hnext] at hfree hmin
  -- All words in front of it are live handles, so there are as many tries as are needed.
  have hsize := length_le_size r.calls hnext (Nat.le_of_lt hn) hmin
  have hallocate : r.allocate =
      (⟨successor^[n] r.next⟩, { r with next := successor (successor^[n] r.next) }) := by
    rw [allocate, search_eq hsize hmin hfree]
  have hsearches := searches_of_free hmin hfree
  rw [← hallocate] at hsearches
  refine ⟨n, hn, ?_, ?_, ?_, ahead_ne_zero _ _, ahead_ne_zero _ _, fun found => ?_⟩
  · rw [hallocate, ← Function.iterate_succ_apply' successor, iterate_successor_eq hnext,
      iterate_successor_eq hnext]
  · simpa only [iterate_successor_eq hnext] using hmin
  · rw [← iterate_successor_eq hnext]
    exact hfree
  · constructor
    · exact fun h => h.unique hsearches
    · rintro rfl
      exact hsearches

/-- The counter is at the largest word. A call is live there, and another one behind it in the
    circle. -/
def turning : Registry :=
  let b : Binding := .new (.memory 0) 0 fun _ request => .done (.ok request)
  let last : Handle := ⟨18446744073709551615⟩
  { next := last.id
    calls := (Table.empty.set last ⟨last, none, 0, b, 0⟩).set ⟨1⟩ ⟨⟨1⟩, none, 0, b, 1⟩
    children := .empty
    issued := 2 }

/-- Both are passed over, and zero as well. -/
theorem allocate_finds_first_of_turn :
    turning.next ≠ 0 ∧ (∃ id : UInt64, id ≠ 0 ∧ turning.calls.contains ⟨id⟩ = false) ∧
      turning.allocate = (⟨2⟩, { turning with next := 3 }) ∧
      Searches turning (⟨2⟩, { turning with next := 3 }) := by
  have hnext : turning.next ≠ 0 := by decide
  have hroom : ∃ id : UInt64, id ≠ 0 ∧ turning.calls.contains ⟨id⟩ = false :=
    ⟨7, by decide, by decide⟩
  rcases allocate_finds_first hnext hroom with ⟨n, -, -, -, -, -, -, hends⟩
  have hallocate : turning.allocate = (⟨2⟩, { turning with next := 3 }) := rfl
  exact ⟨hnext, hroom, hallocate, (hends _).mpr hallocate.symm⟩

end Registry

end ContractHost
