import ContractHost.Proofs.Store.Prefixes
import ContractHost.Proofs.Table
import ContractHost.Store.Records

/-!
# The Records under a Prefix

`Records.under` is what a scope shows of a table: the records whose keys start with the
prefix, without it. It is a table again, so a scope of a scope shows the records under one
prefix followed by the other.

Whatever a scope does to the store that it belongs to comes out as an operation on the
records under the prefix. A look-up, a replacement and a removal meet the key with the
prefix before it. A range of the scope is checked as it is given, and the translated range
then holds exactly the keys of the scope that the given one holds. That no foreign key is
held matters for the first record of a range more than for all of them: a foreign record in
front would not be filtered out, it would be mistaken for the end.

## Main definitions

* `Records.under`: The records under a prefix.

## Theorems

* `Records.get?_under`, `Records.under_under`: Look-ups, and scopes of scopes.
* `Records.under_set`, `Records.under_erase`: Replacement and removal.
* `Scope.holds_outer`, `Scope.prefix_of_holds_outer`: What a translated range holds.
* `Records.range_under`, `Records.seek_under`: Reading a range.
-/

namespace ContractHost

namespace Scope

theorem inner?_eq_some_iff {pre : Bytes} {e e' : Record} :
    inner? pre e = some e' ↔ e = (pre ++ e'.1, e'.2) := by
  unfold inner?
  rw [Option.map_eq_some_iff]
  constructor
  · rintro ⟨rest, hrest, rfl⟩
    rw [Bytes.rest?_eq_some_iff] at hrest
    rw [← hrest]
  · rintro rfl
    exact ⟨e'.1, Bytes.rest?_append pre e'.1, rfl⟩

theorem inner?_append (pre key value : Bytes) :
    inner? pre (pre ++ key, value) = some (key, value) := inner?_eq_some_iff.mpr rfl

/-! ## Ranges -/

theorem inverted_outer {pre : Bytes} {r : Range} (h : r.inverted = false) :
    (outer pre r).inverted = false := by
  rcases r with ⟨start, stop⟩
  unfold Range.inverted outer
  cases stop with
  | none =>
      cases hstop : upper pre with
      | none => rfl
      | some stop =>
          -- The bound lies above everything that starts with the prefix.
          have hlt := append_lt_upper hstop (start.getD [])
          exact decide_eq_false (fun h => List.lt_irrefl _ (List.lt_trans h hlt))
  | some stop =>
      cases start with
      | none =>
          refine decide_eq_false ?_
          rw [Bytes.append_lt_append_iff]
          exact List.not_lt_nil stop
      | some start =>
          refine decide_eq_false ?_
          rw [Option.getD_some, Bytes.append_lt_append_iff]
          exact of_decide_eq_false h

theorem check_outer {pre : Bytes} {r : Range} (h : r.check = .ok ()) :
    (outer pre r).check = .ok () := by
  unfold Range.check at h ⊢
  by_cases hr : r.inverted = true
  · rw [if_pos hr] at h
    cases h
  · rw [Bool.not_eq_true] at hr
    rw [inverted_outer hr]
    rfl

/-- A translated range holds a key of the scope exactly if the given one holds it. -/
theorem holds_outer (pre : Bytes) (r : Range) (key : Bytes) :
    (outer pre r).holds (pre ++ key) = r.holds key := by
  rcases r with ⟨start, stop⟩
  unfold Range.holds outer
  congr 1
  · cases start with
    | none =>
        -- Without a start the translated range starts at the prefix itself.
        dsimp only [Option.getD_none]
        rw [List.append_nil, decide_eq_false (Bytes.not_append_lt pre key)]
        rfl
    | some start =>
        dsimp only [Option.getD_some]
        rw [decide_eq_decide.mpr (Bytes.append_lt_append_iff pre key start)]
  · cases stop with
    | none =>
        -- Without an end it ends where the scope does, if the scope ends at all.
        cases hstop : upper pre with
        | none => rfl
        | some stop => exact decide_eq_true (append_lt_upper hstop key)
    | some stop => exact decide_eq_decide.mpr (Bytes.append_lt_append_iff pre key stop)

/-- A translated range holds nothing but keys of the scope. -/
theorem prefix_of_holds_outer {pre : Bytes} {r : Range} {key : Bytes}
    (h : (outer pre r).holds key = true) : pre <+: key := by
  rcases r with ⟨start, stop⟩
  unfold Range.holds outer at h
  rw [Bool.and_eq_true] at h
  rcases h with ⟨hstart, hstop⟩
  dsimp only at hstart hstop
  -- The translated start begins with the prefix, so a key before the prefix is before it.
  have hlow : ¬ key < pre := by
    intro hlt
    have hbefore := Bytes.lt_append_of_lt hlt (start.getD [])
    rw [decide_eq_true hbefore] at hstart
    cases hstart
  cases stop with
  | none =>
      cases hupper : upper pre with
      -- Up to the end of the store there are none but keys of the scope, if the scope has no end.
      | none => exact prefix_of_upper_eq_none hlow hupper
      | some stop =>
          rw [hupper] at hstop
          exact prefix_of_lt_upper hlow hupper (of_decide_eq_true hstop)
  | some stop => exact Bytes.prefix_of_lt_append hlow (of_decide_eq_true hstop)

end Scope

/-! ## Tables -/

namespace Records

/-- The records under a prefix. -/
def under (t : Records) (pre : Bytes) : Records where
  entries := t.entries.filterMap (Scope.inner? pre)
  ascending := by
    rw [List.pairwise_filterMap]
    -- Two keys with the prefix taken away stand in the order they had with it.
    refine t.ascending.imp (fun {a b} hab a' ha b' hb => ?_)
    rw [Scope.inner?_eq_some_iff] at ha hb
    rw [ha, hb, Bytes.append_lt_append_iff] at hab
    exact hab

/-- What a scope finds is what lies behind the prefix. -/
theorem get?_under (t : Records) (pre key : Bytes) :
    (t.under pre).get? key = t.get? (pre ++ key) := by
  apply Option.ext
  intro value
  rw [← Table.mem_entries_iff, ← Table.mem_entries_iff, under, List.mem_filterMap]
  constructor
  · rintro ⟨e, he, hinner⟩
    rw [Scope.inner?_eq_some_iff] at hinner
    rw [← hinner]
    exact he
  · exact fun he => ⟨_, he, Scope.inner?_append pre key value⟩

theorem under_nil (t : Records) : t.under [] = t :=
  Table.ext_get? (fun key => by rw [get?_under, List.nil_append])

/-- A scope in a scope is one behind both prefixes. -/
theorem under_under (t : Records) (pre pre' : Bytes) :
    (t.under pre).under pre' = t.under (pre ++ pre') :=
  Table.ext_get? (fun key => by rw [get?_under, get?_under, get?_under, List.append_assoc])

/-- A scope has no more records than its store. -/
theorem size_under_le (t : Records) (pre : Bytes) : (t.under pre).size ≤ t.size :=
  List.length_filterMap_le _ _

/-- To write behind the prefix is to write in the scope. -/
theorem under_set (t : Records) (pre key value : Bytes) :
    under (t.set (pre ++ key) value) pre = (t.under pre).set key value := by
  apply Table.ext_get?
  intro k
  rw [get?_under, Table.get?_set, Table.get?_set, get?_under]
  by_cases hk : k = key
  · rw [if_pos hk, if_pos (by rw [hk])]
  · rw [if_neg hk, if_neg (fun h => hk (List.append_cancel_left h))]

theorem under_erase (t : Records) (pre key : Bytes) :
    under (t.erase (pre ++ key)) pre = (t.under pre).erase key := by
  apply Table.ext_get?
  intro k
  rw [get?_under, Table.get?_erase, Table.get?_erase, get?_under]
  by_cases hk : k = key
  · rw [if_pos hk, if_pos (by rw [hk])]
  · rw [if_neg hk, if_neg (fun h => hk (List.append_cancel_left h))]

/-- The translated range holds a record exactly if it is one of the scope that the given
    range holds. -/
theorem holds_outer_eq (pre : Bytes) (r : Range) (e : Record) :
    (Scope.outer pre r).holds e.1 = (Scope.inner? pre e).any fun e' => r.holds e'.1 := by
  cases hinner : Scope.inner? pre e with
  | some e' =>
      rw [Scope.inner?_eq_some_iff] at hinner
      rw [hinner, Scope.holds_outer, Option.any_some]
  | none =>
      rw [Option.any_none, Bool.eq_false_iff]
      intro hholds
      -- A foreign record would have the prefix, and then it would be none.
      rcases Scope.prefix_of_holds_outer hholds with ⟨key, hkey⟩
      have hsome := Scope.inner?_append pre key e.2
      rw [hkey, hinner] at hsome
      cases hsome

/-- The records that a range of the scope holds, one by one. -/
theorem filterMap_filter_outer (entries : List Record) (pre : Bytes) (r : Range) :
    (entries.filter fun e => (Scope.outer pre r).holds e.1).filterMap (Scope.inner? pre) =
      (entries.filterMap (Scope.inner? pre)).filter fun e => r.holds e.1 := by
  rw [List.filterMap_filter, List.filter_filterMap]
  congr 1
  funext e
  rw [holds_outer_eq]
  cases Scope.inner? pre e with
  | none => rfl
  | some e' => rfl

theorem bind_find?_outer (entries : List Record) (pre : Bytes) (r : Range) :
    (entries.find? fun e => (Scope.outer pre r).holds e.1).bind (Scope.inner? pre) =
      (entries.filterMap (Scope.inner? pre)).find? fun e => r.holds e.1 := by
  rw [List.find?_filterMap]
  congr 2
  funext e
  exact holds_outer_eq pre r e

/-- A range of a scope is the translated range of the store, with the prefix taken away. -/
theorem range_under (t : Records) (pre : Bytes) (r : Range) (order : Order) :
    (t.under pre).range r order =
      r.check.bind fun _ =>
        (t.range (Scope.outer pre r) order).map (List.filterMap (Scope.inner? pre)) := by
  unfold range
  cases hcheck : r.check with
  | error e => rfl
  | ok checked =>
      rw [Scope.check_outer hcheck]
      -- The prefix is taken away record by record, so it does not matter whether that is done
      -- before the order is turned around.
      cases order with
      | ascending => exact congrArg Except.ok (filterMap_filter_outer t.entries pre r).symm
      | descending =>
          refine congrArg Except.ok ?_
          dsimp only
          rw [List.filterMap_reverse, filterMap_filter_outer]
          rfl

/-- The first record of a range of a scope is that of the translated range, with the prefix taken
    away. -/
theorem seek_under (t : Records) (pre : Bytes) (r : Range) (order : Order) :
    (t.under pre).seek r order =
      r.check.bind fun _ =>
        (t.seek (Scope.outer pre r) order).map fun found => found.bind (Scope.inner? pre) := by
  unfold seek
  cases hcheck : r.check with
  | error e => rfl
  | ok checked =>
      rw [Scope.check_outer hcheck]
      cases order with
      | ascending => exact congrArg Except.ok (bind_find?_outer t.entries pre r).symm
      | descending =>
          refine congrArg Except.ok ?_
          dsimp only
          rw [bind_find?_outer, List.filterMap_reverse]
          rfl

end Records

end ContractHost
