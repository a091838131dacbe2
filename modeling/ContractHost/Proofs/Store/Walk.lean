import ContractHost.Call.Cursor
import ContractHost.Proofs.Store.Stack

/-!
# Walking through Records

A walk through a range is a sequence of questions for the record that comes next, and the
records may change between two of them. `Records.IsNext` says what the answer should be:
the first record, in the order of the walk, whose key lies in the range and past the last
key that was handed out, or none if there is no such record.

A cursor remembers less than the last key. It only narrows its range, upwards to the keys
from the last one with a zero byte behind it, downwards to those before the last one. That
the narrowed range holds the same keys rests on there being no key between a key and its
extension by a zero byte.

If the records do not change, the answer after the first so many records of the range is
the next one, and none after all of them.

## Main definitions

* `Order.before`: A key that is handed out before another.
* `Range.HoldsPast`: The keys of a range past a last one.
* `Records.IsNext`: The answer of a walk.
* `Cursor.left`: What is left of a range past a last key.
* `Cursor.stepOn`: A step of a cursor on records.

## Theorems

* `Range.holds_past`, `Cursor.holds_left`: What a narrowed range holds.
* `Cursor.seek_left`: The first record of what is left is the answer.
* `Records.isNext_unique`, `Records.isNext_head?`: There is one answer, and on records that
  do not change it is the next record of the range.
-/

namespace ContractHost

namespace Bytes

/-- There is no key between a key and its extension by a zero byte. -/
theorem lt_append_zero_iff (a b : Bytes) : b < a ++ [0] ↔ ¬ a < b := by
  induction a generalizing b with
  | nil =>
      cases b with
      | nil => exact ⟨fun _ => List.not_lt_nil [], fun _ => List.nil_lt_cons 0 []⟩
      | cons x b =>
          constructor
          · intro h
            rw [List.nil_append, List.cons_lt_cons_iff] at h
            rcases h with hx | ⟨-, hb⟩
            · exact absurd (UInt8.lt_iff_toNat_lt.mp hx) (Nat.not_lt_zero _)
            · exact absurd hb (List.not_lt_nil b)
          · exact fun h => absurd (List.nil_lt_cons x b) h
  | cons y a ih =>
      cases b with
      | nil => exact ⟨fun _ => List.not_lt_nil (y :: a), fun _ => List.nil_lt_cons y _⟩
      | cons x b =>
          rw [List.cons_append, List.cons_lt_cons_iff, List.cons_lt_cons_iff, ih b]
          constructor
          · rintro (hx | ⟨rfl, hb⟩) (hy | ⟨hyx, ha⟩)
            · exact UInt8.lt_irrefl x (UInt8.lt_trans hx hy)
            · exact UInt8.lt_irrefl x (hyx ▸ hx)
            · exact UInt8.lt_irrefl x hy
            · exact hb ha
          · intro h
            by_cases hx : x < y
            · exact Or.inl hx
            · have hy : ¬ y < x := fun hlt => h (Or.inl hlt)
              have hxy : x = y := UInt8.le_antisymm (UInt8.not_lt.mp hy) (UInt8.not_lt.mp hx)
              exact Or.inr ⟨hxy, fun ha => h (Or.inr ⟨hxy.symm, ha⟩)⟩

end Bytes

namespace Order

/-- A key that is handed out before another. -/
def before : Order → Bytes → Bytes → Prop
  | ascending, a, b => a < b
  | descending, a, b => b < a

theorem before_irrefl (order : Order) (a : Bytes) : ¬ order.before a a := by
  cases order with
  | ascending => exact List.lt_irrefl a
  | descending => exact List.lt_irrefl a

theorem before_trans {order : Order} {a b c : Bytes} (hab : order.before a b)
    (hbc : order.before b c) : order.before a c := by
  cases order with
  | ascending => exact List.lt_trans hab hbc
  | descending => exact List.lt_trans hbc hab

end Order

namespace Range

/-- The keys of a range past a last one, if there has been one. -/
def HoldsPast (r : Range) (order : Order) (last : Option Bytes) (key : Bytes) : Prop :=
  r.holds key = true ∧ ∀ l, last = some l → order.before l key

/-- A range holds a key that is neither before its start nor at its end or behind it. -/
theorem holds_iff (r : Range) (key : Bytes) :
    r.holds key = true ↔
      (∀ start, r.start = some start → ¬ key < start) ∧
        ∀ stop, r.stop = some stop → key < stop := by
  rcases r with ⟨start, stop⟩
  unfold holds
  rw [Bool.and_eq_true]
  refine and_congr ?_ ?_
  · -- Without a start there is nothing to come before.
    cases start with
    | none => exact ⟨fun _ _ h => (by cases h), fun _ => rfl⟩
    | some start =>
        dsimp only
        rw [Bool.not_eq_true', decide_eq_false_iff_not]
        exact ⟨fun h _ heq => Option.some.inj heq ▸ h, fun h => h start rfl⟩
  · cases stop with
    | none => exact ⟨fun _ _ h => (by cases h), fun _ => rfl⟩
    | some stop =>
        dsimp only
        rw [decide_eq_true_iff]
        exact ⟨fun h _ heq => Option.some.inj heq ▸ h, fun h => h stop rfl⟩

/-- A range narrowed past one of its keys holds what lies past the key. -/
theorem holds_past {r : Range} {last : Bytes} (hlast : r.holds last = true) (order : Order)
    (key : Bytes) :
    (Cursor.past r order last).holds key = true ↔
      r.holds key = true ∧ order.before last key := by
  rw [holds_iff] at hlast
  rw [holds_iff, holds_iff]
  cases order with
  | ascending =>
      -- The start moves up to the first key behind the last one.
      have hpast : ¬ key < last ++ [0] ↔ last < key := by
        rw [Bytes.lt_append_zero_iff, Decidable.not_not]
      constructor
      · rintro ⟨hstart, hstop⟩
        have hlt : last < key := hpast.mp (hstart _ rfl)
        exact ⟨⟨fun start h hk => hlast.1 start h (List.lt_trans hlt hk), hstop⟩, hlt⟩
      · rintro ⟨⟨-, hstop⟩, hlt⟩
        exact ⟨fun start h => Option.some.inj h ▸ hpast.mpr hlt, hstop⟩
  | descending =>
      -- The end moves down to the last key itself.
      constructor
      · rintro ⟨hstart, hstop⟩
        have hlt : key < last := hstop _ rfl
        exact ⟨⟨hstart, fun stop h => List.lt_trans hlt (hlast.2 stop h)⟩, hlt⟩
      · rintro ⟨⟨hstart, -⟩, hlt⟩
        exact ⟨hstart, fun stop h => Option.some.inj h ▸ hlt⟩

/-- Narrowing a range past one of its keys does not turn it around. -/
theorem check_past {r : Range} {last : Bytes} (hlast : r.holds last = true) (order : Order) :
    (Cursor.past r order last).check = .ok () := by
  rw [holds_iff] at hlast
  have hinverted : (Cursor.past r order last).inverted = false := by
    rcases r with ⟨start, stop⟩
    cases order with
    | ascending =>
        cases stop with
        | none => rfl
        | some stop =>
            refine decide_eq_false ?_
            rw [Bytes.lt_append_zero_iff, Decidable.not_not]
            exact hlast.2 stop rfl
    | descending =>
        cases start with
        | none => rfl
        | some start => exact decide_eq_false (hlast.1 start rfl)
  unfold check
  rw [hinverted]
  rfl

end Range

namespace Records

/-! ## Records in an order -/

/-- All records in the given order. -/
def listing (t : Records) : Order → List Record
  | .ascending => t.entries
  | .descending => t.entries.reverse

theorem sorted_listing (t : Records) (order : Order) :
    (t.listing order).Pairwise fun a b => order.before a.1 b.1 := by
  cases order with
  | ascending => exact t.ascending
  | descending => exact List.pairwise_reverse.mpr t.ascending

theorem mem_listing_iff (t : Records) (order : Order) (key value : Bytes) :
    (key, value) ∈ t.listing order ↔ t.get? key = some value := by
  rw [← Table.mem_entries_iff]
  cases order with
  | ascending => rfl
  | descending => exact List.mem_reverse

/-- A range is what it holds of the list. -/
theorem range_eq (t : Records) (r : Range) (order : Order) :
    t.range r order =
      r.check.map fun _ => (t.listing order).filter fun e => r.holds e.1 := by
  unfold range
  cases r.check with
  | error e => rfl
  | ok checked =>
      cases order with
      | ascending => rfl
      | descending => exact congrArg Except.ok List.filter_reverse.symm

/-- A range that is handed out is in order, and is what it holds of all records. -/
theorem listing_of_range {t : Records} {r : Range} {order : Order} {all : List Record}
    (hall : t.range r order = .ok all) :
    r.check = .ok () ∧ ((t.listing order).filter fun e => r.holds e.1) = all := by
  rw [range_eq] at hall
  cases hcheck : r.check with
  | error e =>
      rw [hcheck] at hall
      cases hall
  | ok checked =>
      rw [hcheck] at hall
      exact ⟨rfl, Except.ok.inj hall⟩

/-- There are no more records in a range than in all. -/
theorem length_le_of_range {t : Records} {r : Range} {order : Order} {all : List Record}
    (hall : t.range r order = .ok all) : all.length ≤ t.size := by
  have hlisting : (t.listing order).length = t.size := by
    cases order with
    | ascending => rfl
    | descending => exact List.length_reverse
  rw [← (listing_of_range hall).2, ← hlisting]
  exact List.length_filter_le _ _

/-- The first record of a range is the first of the list that it holds. -/
theorem seek_eq (t : Records) (r : Range) (order : Order) :
    t.seek r order =
      r.check.map fun _ => (t.listing order).find? fun e => r.holds e.1 := by
  unfold seek
  cases r.check with
  | error e => rfl
  | ok checked =>
      cases order with
      | ascending => rfl
      | descending => rfl

/-! ## The next record -/

/-- What a walk should be answered after a last key: the first record, in the order of the
    walk, of those in the range and past that key, or none if there are none. -/
def IsNext (t : Records) (r : Range) (order : Order) (last : Option Bytes) :
    Option Record → Prop
  | some e =>
    t.get? e.1 = some e.2 ∧ r.HoldsPast order last e.1 ∧
      ∀ key value, t.get? key = some value → r.HoldsPast order last key → key ≠ e.1 →
        order.before e.1 key
  | none => ∀ key, r.HoldsPast order last key → t.get? key = none

theorem isNext_unique {t : Records} {r : Range} {order : Order} {last : Option Bytes}
    {found found' : Option Record} (h : t.IsNext r order last found)
    (h' : t.IsNext r order last found') : found = found' := by
  cases found with
  | none =>
      cases found' with
      | none => rfl
      | some e =>
          rcases h' with ⟨hget, hholds, -⟩
          rw [h e.1 hholds] at hget
          cases hget
  | some e =>
      rcases h with ⟨hget, hholds, hfirst⟩
      cases found' with
      | none =>
          rw [h' e.1 hholds] at hget
          cases hget
      | some e' =>
          rcases h' with ⟨hget', hholds', hfirst'⟩
          by_cases hkey : e'.1 = e.1
          · rw [hkey, hget] at hget'
            exact congrArg some (Prod.ext hkey.symm (Option.some.inj hget'))
          · -- Each would be handed out before the other.
            have hbefore := hfirst e'.1 e'.2 hget' hholds' hkey
            have hbefore' := hfirst' e.1 e.2 hget hholds (fun heq => hkey heq.symm)
            exact absurd (Order.before_trans hbefore hbefore') (Order.before_irrefl order e.1)

/-- What is left of a sorted list behind some of its records begins with the next one. -/
theorem isNext_head? {t : Records} {r : Range} {order : Order} {past rest : List Record}
    (h : (t.listing order).filter (fun e => r.holds e.1) = past ++ rest) :
    t.IsNext r order (past.getLast?.map Prod.fst) rest.head? := by
  have hmem : ∀ key value, (key, value) ∈ past ++ rest ↔
      t.get? key = some value ∧ r.holds key = true := by
    intro key value
    rw [← h, List.mem_filter, mem_listing_iff]
  have hsorted : (past ++ rest).Pairwise fun a b => order.before a.1 b.1 := by
    rw [← h]
    exact (sorted_listing t order).filter _
  rw [List.pairwise_append] at hsorted
  rcases hsorted with ⟨hpast, hrest, hacross⟩
  -- Nothing that has been handed out lies past the last record handed out.
  have hbehind : ∀ key value, r.HoldsPast order (past.getLast?.map Prod.fst) key →
      (key, value) ∉ past := by
    intro key value hholds hin
    rcases List.eq_nil_or_concat past with hnil | ⟨front, last, hconcat⟩
    · rw [hnil] at hin
      cases hin
    · rw [List.concat_eq_append] at hconcat
      have hlast := hholds.2 last.1 (by rw [hconcat, List.getLast?_concat]; rfl)
      rw [hconcat, List.mem_append, List.mem_singleton] at hin
      rw [hconcat, List.pairwise_append] at hpast
      rcases hin with hfront | heq
      · have hbefore := hpast.2.2 _ hfront last (List.mem_singleton.mpr rfl)
        exact Order.before_irrefl order key (Order.before_trans hbefore hlast)
      · rw [← heq] at hlast
        exact Order.before_irrefl order key hlast
  cases rest with
  | nil =>
      intro key hholds
      cases hget : t.get? key with
      | none => rfl
      | some value =>
          -- With no rest, everything in the range has been handed out.
          have hin := (hmem key value).mpr ⟨hget, hholds.1⟩
          rw [List.append_nil] at hin
          exact absurd hin (hbehind key value hholds)
  | cons e rest =>
      rcases (hmem e.1 e.2).mp (List.mem_append_right _ List.mem_cons_self) with ⟨hget, hheld⟩
      refine ⟨hget, ⟨hheld, ?_⟩, ?_⟩
      · -- The last record handed out comes before all of the rest.
        intro l hl
        rw [Option.map_eq_some_iff] at hl
        rcases hl with ⟨last, hlast, rfl⟩
        exact hacross last (List.mem_of_getLast? hlast) e List.mem_cons_self
      · intro key value hkey hholds hne
        rcases List.mem_append.mp ((hmem key value).mpr ⟨hkey, hholds.1⟩) with hin | hin
        · exact absurd hin (hbehind key value hholds)
        · rcases List.mem_cons.mp hin with heq | hin
          · exact absurd (congrArg Prod.fst heq) hne
          · exact (List.pairwise_cons.mp hrest).1 (key, value) hin

/-- A range that holds just what lies past the last key is answered with the next record. -/
theorem isNext_find? {t : Records} {r r' : Range} {order : Order} {last : Option Bytes}
    (h : ∀ key, r'.holds key = true ↔ r.HoldsPast order last key) :
    t.IsNext r order last ((t.listing order).find? fun e => r'.holds e.1) := by
  -- From its own beginning the narrowed range is answered with its first record.
  have hnext : t.IsNext r' order none
      ((t.listing order).filter fun e => r'.holds e.1).head? :=
    isNext_head? (List.nil_append _).symm
  rw [List.head?_filter] at hnext
  have hpast : ∀ key, r'.HoldsPast order none key ↔ r.HoldsPast order last key := by
    intro key
    rw [← h key]
    exact ⟨fun hholds => hholds.1, fun hholds => ⟨hholds, fun _ hl => by cases hl⟩⟩
  cases hfound : (t.listing order).find? fun e => r'.holds e.1 with
  | none =>
      rw [hfound] at hnext
      exact fun key hholds => hnext key ((hpast key).mpr hholds)
  | some e =>
      rw [hfound] at hnext
      rcases hnext with ⟨hget, hholds, hfirst⟩
      exact ⟨hget, (hpast e.1).mp hholds,
        fun key value hkey hpastkey => hfirst key value hkey ((hpast key).mpr hpastkey)⟩

end Records

/-! ## Cursors -/

namespace Cursor

/-- What is left of a range past a last key, if there has been one. -/
def left (r : Range) (order : Order) : Option Bytes → Range
  | none => r
  | some last => past r order last

/-- A range narrowed twice is narrowed past the later key. -/
theorem past_left (r : Range) (order : Order) (last : Option Bytes) (key : Bytes) :
    past (left r order last) order key = past r order key := by
  cases last with
  | none => rfl
  | some last =>
      cases order with
      | ascending => rfl
      | descending => rfl

variable {r : Range} {order : Order} {last : Option Bytes}
  (hlast : ∀ l, last = some l → r.holds l = true)

include hlast

theorem holds_left (key : Bytes) :
    (left r order last).holds key = true ↔ r.HoldsPast order last key := by
  cases last with
  | none => exact ⟨fun h => ⟨h, fun _ hl => by cases hl⟩, fun h => h.1⟩
  | some l =>
      rw [left, Range.holds_past (hlast l rfl)]
      exact ⟨fun h => ⟨h.1, fun _ hl => Option.some.inj hl ▸ h.2⟩, fun h => ⟨h.1, h.2 l rfl⟩⟩

theorem check_left (hr : r.check = .ok ()) : (left r order last).check = .ok () := by
  cases last with
  | none => exact hr
  | some l => exact Range.check_past (hlast l rfl) order

/-- The first record of what is left is the next one, and looking for it is not refused. -/
theorem seek_left (hr : r.check = .ok ()) (t : Records) :
    ∃ found, t.seek (left r order last) order = .ok found ∧ t.IsNext r order last found := by
  rw [Records.seek_eq, check_left hlast hr]
  exact ⟨_, rfl, Records.isNext_find? (holds_left hlast)⟩

omit hlast

/-- A step of a cursor on records. -/
def stepOn (t : Records) (c : Cursor) : Except StoreError (Option Record × Cursor) :=
  if c.exhausted then .ok (none, c)
  else
    match t.seek c.range c.order with
    | .error e => .error e
    | .ok (some e) => .ok (some e, { c with range := past c.range c.order e.1 })
    | .ok none => .ok (none, { c with exhausted := true })

/-- A step on a store is a step on the records that the store shows. -/
theorem step_eq_stepOn {s : Store} {id : MemoryId} {pre : Bytes} (h : s.Shows id pre)
    (c : Cursor) (w : Chain) : c.step s w = (.ok (c.stepOn ((w.memory id).under pre)), w) := by
  unfold step stepOn
  -- A cursor has one question for its store, and none when it is exhausted.
  by_cases hexhausted : c.exhausted = true
  · rw [if_pos hexhausted, if_pos hexhausted]
    rfl
  · rw [if_neg hexhausted, if_neg hexhausted, Attempt.bind_apply, h.seek]
    rcases ((w.memory id).under pre).seek c.range c.order with e | _ | e
    · rfl
    · rfl
    · rfl

/-! ## Walks -/

/-- The key of the last record that a walk has been answered with. -/
def lastKey (prior : List (Option Record)) : Option Bytes :=
  (prior.filterMap id).getLast?.map Prod.fst

theorem lastKey_concat_some (prior : List (Option Record)) (e : Record) :
    lastKey (prior ++ [some e]) = some e.1 := by
  unfold lastKey
  rw [List.filterMap_append]
  change ((prior.filterMap id ++ [e]).getLast?).map Prod.fst = _
  rw [List.getLast?_concat]
  rfl

theorem lastKey_concat_none (prior : List (Option Record)) :
    lastKey (prior ++ [none]) = lastKey prior := by
  unfold lastKey
  rw [List.filterMap_append]
  change ((prior.filterMap id ++ []).getLast?).map Prod.fst = _
  rw [List.append_nil]

end Cursor

/-- How a walk that has been answered with `prior` should be answered next: with none
    forever after the first none, and with the next record until then. -/
structure Records.Continues (t : Records) (r : Range) (order : Order)
    (prior : List (Option Record)) (found : Option Record) : Prop where
  ended : none ∈ prior → found = none
  going : none ∉ prior → t.IsNext r order (Cursor.lastKey prior) found

/-- What a cursor knows of the walk so far. -/
structure Cursor.Recalls (r : Range) (order : Order) (prior : List (Option Record)) (c : Cursor) :
    Prop where
  order_eq : c.order = order
  exhausted_iff : c.exhausted = true ↔ none ∈ prior
  range_eq : none ∉ prior → c.range = left r order (lastKey prior)
  held : ∀ l, lastKey prior = some l → r.holds l = true

namespace Cursor

variable {r : Range} {order : Order} {prior : List (Option Record)} {c : Cursor}

theorem recalls_new (r : Range) (order : Order) : Recalls r order [] ⟨r, order, false⟩ where
  order_eq := rfl
  exhausted_iff := ⟨fun h => (by cases h), fun h => absurd h List.not_mem_nil⟩
  range_eq _ := rfl
  held _ h := by cases h

/-- A step is not refused, it is answered as it should be, and the cursor knows. -/
theorem Recalls.step (h : c.Recalls r order prior) (hr : r.check = .ok ()) (t : Records) :
    ∃ found c', c.stepOn t = .ok (found, c') ∧ t.Continues r order prior found ∧
      c'.Recalls r order (prior ++ [found]) := by
  unfold stepOn
  by_cases hexhausted : c.exhausted = true
  · have hended := h.exhausted_iff.mp hexhausted
    -- An exhausted cursor does not look, whatever the records are now.
    refine ⟨none, c, if_pos hexhausted, ⟨fun _ => rfl, fun hgoing => absurd hended hgoing⟩, ?_⟩
    refine ⟨h.order_eq, ?_, ?_, ?_⟩
    · exact ⟨fun _ => List.mem_append_left _ hended, fun _ => hexhausted⟩
    · exact fun hgoing => absurd (List.mem_append_left _ hended) hgoing
    · rw [lastKey_concat_none]
      exact h.held
  · have hgoing : none ∉ prior := fun hended => hexhausted (h.exhausted_iff.mpr hended)
    rcases seek_left h.held hr t with ⟨found, hseek, hnext⟩
    rw [if_neg hexhausted, h.range_eq hgoing, h.order_eq, hseek]
    cases found with
    | none =>
        refine ⟨none, _, rfl, ⟨fun _ => rfl, fun _ => hnext⟩, rfl, ?_, ?_, ?_⟩
        · -- The end is noted, and from now on it is among the answers.
          exact ⟨fun _ => List.mem_concat_self, fun _ => rfl⟩
        · exact fun hnot => absurd List.mem_concat_self hnot
        · rw [lastKey_concat_none]
          exact h.held
    | some e =>
        -- The range is narrowed past the record, which is the last key from now on.
        refine ⟨some e, _, rfl, ⟨fun hended => absurd hended hgoing, fun _ => hnext⟩, rfl, ?_, ?_,
          ?_⟩
        · refine ⟨fun hc => absurd hc hexhausted, fun hin => ?_⟩
          rcases List.mem_append.mp hin with hin | hin
          · exact absurd hin hgoing
          · cases List.mem_singleton.mp hin
        · intro _
          rw [lastKey_concat_some, past_left]
          rfl
        · intro l hl
          rw [lastKey_concat_some] at hl
          rw [← Option.some.inj hl]
          exact hnext.2.1.1

end Cursor

/-- The records among the first so many answers. -/
theorem Records.filterMap_getElem? (all : List Record) (n : Nat) :
    ((List.range n).map (all[·]?)).filterMap id = all.take n := by
  induction n with
  | zero => rfl
  | succ n ih =>
      rw [List.range_succ, List.map_append, List.filterMap_append, ih, List.take_add_one]
      rfl

/-- On records that do not change, the answers are the records of the range one after
    another, and none from the end on. -/
theorem Records.Continues.eq_getElem? {t : Records} {r : Range} {order : Order}
    {all : List Record} (hall : t.range r order = .ok all) {prior : List (Option Record)}
    (hprior : prior = (List.range prior.length).map (all[·]?)) {found : Option Record}
    (h : t.Continues r order prior found) : found = all[prior.length]? := by
  by_cases hended : none ∈ prior
  · rw [h.ended hended]
    -- A none among the answers means that they have passed the end of the range.
    rw [hprior, List.mem_map] at hended
    rcases hended with ⟨i, hi, hnone⟩
    rw [List.mem_range] at hi
    rw [List.getElem?_eq_none_iff] at hnone
    exact (List.getElem?_eq_none (by omega)).symm
  · have hlength : prior.length ≤ all.length := by
      refine Decidable.byContradiction (fun hlong => hended ?_)
      rw [hprior, List.mem_map]
      exact ⟨all.length, List.mem_range.mpr (by omega), List.getElem?_eq_none (Nat.le_refl _)⟩
    -- Without a none, they are the first so many records of the range.
    have hpast : prior.filterMap id = all.take prior.length := by
      rw [hprior, List.length_map, List.length_range]
      exact filterMap_getElem? all prior.length
    have hlisting : (t.listing order).filter (fun e => r.holds e.1) =
        all.take prior.length ++ all.drop prior.length := by
      rw [List.take_append_drop]
      exact (listing_of_range hall).2
    have hnext := h.going hended
    unfold Cursor.lastKey at hnext
    rw [hpast] at hnext
    rw [Records.isNext_unique hnext (Records.isNext_head? hlisting), List.head?_drop]

/-- A store hands out a range that is in order, as the records that it shows have it. -/
theorem Store.Shows.range_ok {s : Store} {id : MemoryId} {pre : Bytes} (h : s.Shows id pre)
    {r : Range} (hr : r.check = .ok ()) (order : Order) (c : Chain) :
    ∃ all, ((c.memory id).under pre).range r order = .ok all ∧
      s.range r order c = (.ok (.ok all), c) := by
  rw [h.range, Records.range_eq, hr]
  exact ⟨_, rfl, rfl⟩

/-- After some records of a range and no none, the answer is the first of the rest. -/
theorem Records.Continues.eq_head? {t : Records} {r : Range} {order : Order}
    {past rest : List Record} (hall : t.range r order = .ok (past ++ rest))
    {found : Option Record} (h : t.Continues r order (past.map some) found) :
    found = rest.head? := by
  have hgoing : none ∉ past.map some := by
    rw [List.mem_map]
    rintro ⟨e, -, he⟩
    cases he
  have hlast : Cursor.lastKey (past.map some) = past.getLast?.map Prod.fst := by
    unfold Cursor.lastKey
    rw [List.filterMap_map, Function.id_comp, List.filterMap_some]
  have hnext := h.going hgoing
  rw [hlast] at hnext
  exact isNext_unique hnext (isNext_head? (listing_of_range hall).2)

end ContractHost
