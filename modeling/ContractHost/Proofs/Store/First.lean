import ContractHost.Proofs.Store.Walk

/-!
# The First Record of a Range

A range can be read as a whole, or for its first record alone, and each of the two ways has an
implementation of its own in a memory and in a scope. A cursor rests on the second one, so the
two have to agree: the first record is the head of the list, and there is none, or a refusal,
exactly when the list is empty or refused.

In a memory this is a fact about lists, since to look for the first member is to filter and take
the head. A scope takes the prefix away from every record of a list and drops foreign ones, but
from a single record it can only take the prefix away or find that it is foreign, and then all
that it has to answer is that there is none. `Store.shows_stack` says that the translated bounds
never let it come to that, at any depth, so the fact about lists is all there is to do.

A list that is handed out holds the records under the keys of the range, in ascending order and
each once, and the other order is its reverse.

## Main definitions

* `Store.Lists`: What the records of a range are.

## Theorems

* `Range.inverted_iff`, `Range.check_cases`: When a range is refused.
* `Records.seek_eq_head?`: The first record is the head of the list.
* `Records.range_ascending`: What a list of records is.
* `Store.stack_seek_first`: Both, for stacks of scopes.
-/

namespace ContractHost

namespace Range

theorem inverted_iff (r : Range) :
    r.inverted = true ↔ ∃ start ∈ r.start, ∃ stop ∈ r.stop, stop < start := by
  rcases r with ⟨_ | start, _ | stop⟩ <;> simp [inverted]

/-- A range is refused if it starts after its end, and for no other reason. -/
theorem check_cases (r : Range) :
    ((∃ start ∈ r.start, ∃ stop ∈ r.stop, stop < start) ∧ r.check = .error .invalidRange) ∨
      (¬ (∃ start ∈ r.start, ∃ stop ∈ r.stop, stop < start) ∧ r.check = .ok ()) := by
  rw [← inverted_iff, check]
  by_cases h : r.inverted = true
  · exact Or.inl ⟨h, if_pos h⟩
  · exact Or.inr ⟨h, if_neg h⟩

end Range

namespace Records

/-- What is found first is the head of what is found, in either order. -/
theorem seek_eq_head? (t : Records) (r : Range) (order : Order) :
    t.seek r order = (t.range r order).map List.head? := by
  rw [seek_eq, range_eq]
  -- Both look at the range first, and refuse it for the same reason.
  cases r.check with
  | error e => rfl
  | ok checked => exact congrArg Except.ok List.head?_filter.symm

/-- The records of a range that is in order. -/
theorem range_ascending (t : Records) {r : Range} (h : r.check = .ok ()) :
    ∃ all : List Record, t.range r .ascending = .ok all ∧
      t.range r .descending = .ok all.reverse ∧ (all.Pairwise fun a b => a.1 < b.1) ∧
      ∀ key value, (key, value) ∈ all ↔ t.get? key = some value ∧ r.holds key = true := by
  refine ⟨t.entries.filter fun e => r.holds e.1, ?_, ?_, t.ascending.filter _, ?_⟩
  · rw [range_eq, h]
    rfl
  · rw [range_eq, h]
    exact congrArg Except.ok List.filter_reverse
  · intro key value
    rw [List.mem_filter, Table.mem_entries_iff]

end Records

namespace Store

/-- The records that the store holds under the keys of the range: each comes once and in the
    order of the keys, or all in the reverse order, and to read them changes nothing. -/
structure Lists (s : Store) (c : Chain) (r : Range) (all : List Record) : Prop where
  ascending : s.range r .ascending c = (.ok (.ok all), c)
  descending : s.range r .descending c = (.ok (.ok all.reverse), c)
  increasing : all.Pairwise fun a b => a.1 < b.1
  nodup : (all.map Prod.fst).Nodup
  mem_iff : ∀ key value, (key, value) ∈ all ↔
    (s.get key c).1 = .ok (.ok (some value)) ∧
      (∀ start ∈ r.start, start ≤ key) ∧ ∀ stop ∈ r.stop, key < stop

/-- A store that shows records finds the first of a range where it lists it. -/
theorem Shows.seek_eq_head? {s : Store} {id : MemoryId} {pre : Bytes} (h : s.Shows id pre)
    (r : Range) (order : Order) (c : Chain) :
    s.seek r order c = ((s.range r order c).1.map (Except.map List.head?), c) := by
  rw [h.seek, h.range, Records.seek_eq_head?]
  rfl

/-- It lists a range that is in order. -/
theorem Shows.lists {s : Store} {id : MemoryId} {pre : Bytes} (h : s.Shows id pre) {r : Range}
    (hr : r.check = .ok ()) (c : Chain) : ∃ all, s.Lists c r all := by
  rcases Records.range_ascending ((c.memory id).under pre) hr with
    ⟨all, hasc, hdesc, hsorted, hmem⟩
  refine ⟨all, ?_, ?_, hsorted, ?_, fun key value => ?_⟩
  · rw [h.range, hasc]
  · rw [h.range, hdesc]
  · -- Keys in ascending order do not come twice.
    rw [List.nodup_iff_pairwise_ne, List.pairwise_map]
    exact hsorted.imp fun hlt => TotalKey.ne_of_lt hlt
  · rw [hmem, Range.holds_iff, h.get]
    have hfound : ∀ found : Option Bytes, found = some value ↔
        (.ok (.ok found) : Except Panic (Except StoreError (Option Bytes))) =
          .ok (.ok (some value)) := by simp
    exact and_congr (hfound _) Iff.rfl

/-- In a stack of scopes over a memory, to any depth and whatever the memory holds, the first
    record of a range is the head of its list, in either order, and it is refused as the list is.
    That is the case if the range starts after its end. Otherwise the list holds the records under
    the keys of the range, which are those of the memory under all prefixes put together. -/
theorem stack_seek_first (prefixes : List Bytes) (id : MemoryId) (r : Range) (c : Chain) :
    (∀ key, (stack prefixes (memory id)).get key c =
        (.ok (.ok ((c.memory id).get? (prefixes.flatten ++ key))), c)) ∧
      (∀ order, (stack prefixes (memory id)).seek r order c =
        (((stack prefixes (memory id)).range r order c).1.map (Except.map List.head?), c)) ∧
      (((∃ start ∈ r.start, ∃ stop ∈ r.stop, stop < start) ∧
          ∀ order, (stack prefixes (memory id)).range r order c =
            (.ok (.error .invalidRange), c)) ∨
        (¬ (∃ start ∈ r.start, ∃ stop ∈ r.stop, stop < start) ∧
          ∃ all, (stack prefixes (memory id)).Lists c r all)) := by
  have hshows := shows_stack prefixes id
  refine ⟨fun key => ?_, fun order => hshows.seek_eq_head? r order c, ?_⟩
  · rw [hshows.get, Records.get?_under]
  rcases r.check_cases with ⟨hinverted, hcheck⟩ | ⟨hfits, hcheck⟩
  · refine Or.inl ⟨hinverted, fun order => ?_⟩
    rw [hshows.range, Records.range_eq, hcheck]
    rfl
  · exact Or.inr ⟨hfits, hshows.lists hcheck c⟩

end Store

end ContractHost
