import ContractHost.Proofs.Registry.Handle

/-!
# Consistent Registries

A registry keeps two tables that have to agree: the live calls, and a count of live
children that is changed call by call and never recomputed. `Consistent` says in what
they agree whatever has happened before: only live calls have counts, no stored count is
zero, every context carries the handle it is found under, and no two live calls have the
same serial number.

`Reached` is what "whatever has happened before" means. A call below a context may be
registered at any time, also long after the context's own call has been released, so
`registerChild` takes any context at all. Every registry that can arise is therefore
reached, and every reached registry is consistent.

Both operations on counts are given here by what they do to a single look-up. Everything
later that has to do with counts goes through `get?_countChild` and `get?_forgetChild`.

## Main definitions

* `Registry.Consistent`: The two tables agree.
* `Registry.Reached`: A registry that arises from the empty one.

## Theorems

* `Registry.get?_countChild`, `Registry.get?_forgetChild`: Counts after a change.
* `Registry.insert_eq`, `Registry.get?_children_insert`: A registration, and the counts
  after it.
* `Registry.release_eq`, `Registry.get?_children_release`: A release, and the counts after
  it.
* `Registry.Consistent.insert`, `Registry.Consistent.release`: Registrations and releases
  keep a registry consistent.
* `Registry.Reached.consistent`: Every registry that arises is consistent.
-/

namespace ContractHost

namespace Registry

/-! ## The tables after one operation -/

/-- Counting a child changes nothing but the counts. -/
theorem countChild_eq (r : Registry) (p : Handle) :
    r.countChild p = { r with children := (r.countChild p).children } := by
  unfold countChild
  by_cases h : r.calls.contains p = true
  · rw [if_pos h]
  · rw [if_neg h]

/-- Forgetting a child changes nothing but the counts. -/
theorem forgetChild_eq (r : Registry) (p : Handle) :
    r.forgetChild p = { r with children := (r.forgetChild p).children } := by
  unfold forgetChild
  cases r.children.get? p with
  | none => rfl
  | some n => rfl

/-- A parent that is live has one more child counted; no other count changes. -/
theorem get?_countChild (r : Registry) (p k : Handle) :
    (r.countChild p).children.get? k =
      if k = p ∧ r.calls.contains p = true then some (r.childCount p + 1)
      else r.children.get? k := by
  unfold countChild childCount
  by_cases hlive : r.calls.contains p = true
  · rw [if_pos hlive, Table.get?_set]
    by_cases hk : k = p
    · rw [if_pos hk, if_pos ⟨hk, hlive⟩]
    · rw [if_neg hk, if_neg (fun h => hk h.1)]
  · rw [if_neg hlive, if_neg (fun h => hlive h.2)]

/-- A count that is not stored stays so, and a count of one is no longer stored. -/
theorem get?_forgetChild (r : Registry) (p k : Handle) :
    (r.forgetChild p).children.get? k =
      if k = p then (r.children.get? p).bind fun n => if n ≤ 1 then none else some (n - 1)
      else r.children.get? k := by
  unfold forgetChild
  cases hp : r.children.get? p with
  | none =>
      by_cases hk : k = p
      · rw [if_pos hk, hk, hp, Option.bind_none]
      · rw [if_neg hk]
  | some n =>
      simp only [Option.bind_some]
      -- A count of one is erased and any other one lowered, and no other key is touched.
      by_cases hn : n ≤ 1
      · simp only [if_pos hn]
        rw [Table.get?_erase]
      · simp only [if_neg hn]
        rw [Table.get?_set]

/-- The context under which a call is registered. -/
def contextFor (r : Registry) (b : Binding) (parent : Option Handle) (depth : UInt32) :
    Context :=
  ⟨r.allocate.1, parent, depth, b, r.issued⟩

/-- A registration enters one call, counts it for its parent, and moves both counters on. -/
theorem insert_eq (r : Registry) (b : Binding) (parent : Option Handle) (depth : UInt32) :
    r.insert b parent depth =
      (r.allocate.1,
        { next := successor r.allocate.1.id
          calls := r.calls.set r.allocate.1 (r.contextFor b parent depth)
          children := (r.insert b parent depth).2.children
          issued := r.issued + 1 }) := by
  unfold insert
  cases parent with
  | none => rfl
  | some p =>
      dsimp only
      rw [countChild_eq]
      rfl

theorem calls_insert (r : Registry) (b : Binding) (parent : Option Handle) (depth : UInt32) :
    (r.insert b parent depth).2.calls =
      r.calls.set r.allocate.1 (r.contextFor b parent depth) := by
  rw [insert_eq]

/-- The counts after a registration: the parent has one child more, if it is live by then. -/
theorem get?_children_insert (r : Registry) (b : Binding) (parent : Option Handle)
    (depth : UInt32) (k : Handle) :
    (r.insert b parent depth).2.children.get? k =
      if parent = some k ∧ (r.insert b parent depth).2.calls.contains k = true then
        some (r.childCount k + 1)
      else r.children.get? k := by
  rw [calls_insert]
  cases parent with
  | none =>
      rw [if_neg (fun h => absurd h.1 (by simp only [reduceCtorEq, not_false_eq_true]))]
      rfl
  | some p =>
      -- The call is entered before its parent is counted, so a call below itself would count.
      let entered : Registry :=
        { r.allocate.2 with
          calls := r.calls.set r.allocate.1 (r.contextFor b (some p) depth)
          issued := r.issued + 1 }
      change (entered.countChild p).children.get? k =
        if some p = some k ∧ entered.calls.contains k = true then some (r.childCount k + 1)
        else r.children.get? k
      rw [get?_countChild]
      by_cases hk : k = p
      · subst hk
        simp only [true_and]
        rfl
      · rw [if_neg (fun h => hk h.1), if_neg (fun h => hk (Option.some.inj h.1).symm)]
        rfl

/-- What is not live cannot be released, and nothing changes. -/
theorem release_of_none (r : Registry) (h : Handle) (hdead : r.calls.get? h = none) :
    r.release h = (false, r) := by
  unfold release
  rw [hdead]

/-- A release touches the live calls and the counts, and neither of the counters. -/
theorem release_eq (r : Registry) (h : Handle) :
    (r.release h).2 =
      { r with calls := r.calls.erase h, children := (r.release h).2.children } := by
  cases hlive : r.calls.get? h with
  | none =>
      rw [release_of_none r h hlive, Table.erase_of_none r.calls hlive]
  | some c =>
      unfold release
      rw [hlive]
      cases hparent : c.parent with
      | none => simp only [hparent]
      | some p =>
          simp only [hparent]
          rw [forgetChild_eq]

theorem calls_release (r : Registry) (h : Handle) :
    (r.release h).2.calls = r.calls.erase h := by
  rw [release_eq]

/-- The counts after a release: the count of the call is gone, and that of its parent has fallen by
    one or is gone as well. -/
theorem get?_children_release (r : Registry) (h k : Handle) (c : Context)
    (hlive : r.calls.get? h = some c) :
    (r.release h).2.children.get? k =
      if k = h then none
      else if c.parent = some k then
        (r.children.get? k).bind fun n => if n ≤ 1 then none else some (n - 1)
      else r.children.get? k := by
  unfold release
  rw [hlive]
  dsimp only
  rw [Table.get?_erase]
  by_cases hkh : k = h
  · rw [if_pos hkh, if_pos hkh]
  · rw [if_neg hkh, if_neg hkh]
    cases hparent : c.parent with
    | none => rw [if_neg (by simp only [reduceCtorEq, not_false_eq_true])]
    | some p =>
        dsimp only
        rw [get?_forgetChild]
        -- The call is another one, and of the others only the parent has its count lowered.
        by_cases hkp : k = p
        · rw [if_pos hkp, if_pos (by rw [hkp]), hkp]
        · rw [if_neg hkp, if_neg (fun heq => hkp (Option.some.inj heq).symm)]

/-! ## What holds in every registry that arises -/

/-- A look-up finds exactly the live calls. -/
theorem lookup_eq_ok_iff {r : Registry} {h : Handle} {c : Context} :
    r.lookup h = .ok c ↔ r.calls.get? h = some c := by
  unfold lookup
  cases r.calls.get? h with
  | none => simp only [reduceCtorEq]
  | some c' => simp only [Except.ok.injEq, Option.some.injEq]

/-- A call is found under the handle that it has been registered under. -/
theorem lookup_insert_self (r : Registry) (b : Binding) (parent : Option Handle)
    (depth : UInt32) :
    (r.insert b parent depth).2.lookup (r.insert b parent depth).1 =
      .ok (r.contextFor b parent depth) := by
  -- The handle that is handed out is the key that the call is entered under.
  have hcall : (r.insert b parent depth).1 = r.allocate.1 := by rw [insert_eq]
  rw [lookup_eq_ok_iff, calls_insert, hcall, Table.get?_set_self]

/-- What is live after a release was live before it. -/
theorem get?_of_release {r : Registry} {h k : Handle} {c : Context}
    (hk : (r.release h).2.calls.get? k = some c) : r.calls.get? k = some c := by
  rw [calls_release, Table.get?_erase] at hk
  by_cases hkh : k = h
  · rw [if_pos hkh] at hk
    exact absurd hk (by simp only [reduceCtorEq, not_false_eq_true])
  · rw [if_neg hkh] at hk
    exact hk

/-- The two tables of a registry agree. -/
structure Consistent (r : Registry) : Prop where
  next_ne_zero : r.next ≠ 0
  /-- A stored count is that of a live call. -/
  counted_live : ∀ h n, r.children.get? h = some n → ∃ c, r.calls.get? h = some c
  counted_pos : ∀ h n, r.children.get? h = some n → 0 < n
  handle_eq : ∀ h c, r.calls.get? h = some c → c.handle = h
  serial_lt : ∀ h c, r.calls.get? h = some c → c.serial < r.issued
  serial_inj : ∀ h c h' c', r.calls.get? h = some c → r.calls.get? h' = some c' →
    c.serial = c'.serial → h = h'

theorem consistent_empty : Consistent empty where
  next_ne_zero := by decide
  counted_live _ _ h := absurd h (by simp [empty])
  counted_pos _ _ h := absurd h (by simp [empty])
  handle_eq _ _ h := absurd h (by simp [empty])
  serial_lt _ _ h := absurd h (by simp [empty])
  serial_inj _ _ _ _ h := absurd h (by simp [empty])

namespace Consistent

variable {r : Registry}

/-- A registration keeps a registry consistent, also where it enters the call over a live one. -/
theorem insert (hr : r.Consistent) (b : Binding) (parent : Option Handle) (depth : UInt32) :
    (r.insert b parent depth).2.Consistent where
  next_ne_zero := by
    rw [insert_eq]
    exact successor_ne_zero _
  counted_live := by
    intro k n hk
    rw [get?_children_insert] at hk
    by_cases hnew : parent = some k ∧ (r.insert b parent depth).2.calls.contains k = true
    · -- Only a live parent is counted.
      exact (Table.contains_iff _ _).mp hnew.2
    · rw [if_neg hnew] at hk
      -- A call that is entered over the counted one is live in its place.
      rcases hr.counted_live k n hk with ⟨c, hc⟩
      rw [calls_insert, Table.get?_set]
      by_cases hhandle : k = r.allocate.1
      · exact ⟨_, if_pos hhandle⟩
      · exact ⟨c, by rw [if_neg hhandle, hc]⟩
  counted_pos := by
    intro k n hk
    rw [get?_children_insert] at hk
    -- A stored count has just been raised, or is one from before.
    by_cases hnew : parent = some k ∧ (r.insert b parent depth).2.calls.contains k = true
    · rw [if_pos hnew, Option.some.injEq] at hk
      omega
    · rw [if_neg hnew] at hk
      exact hr.counted_pos k n hk
  handle_eq := by
    intro h c hc
    rw [calls_insert, Table.get?_set] at hc
    by_cases hh : h = r.allocate.1
    · rw [if_pos hh, Option.some.injEq] at hc
      rw [← hc, hh, contextFor]
    · rw [if_neg hh] at hc
      exact hr.handle_eq h c hc
  serial_lt := by
    intro h c hc
    rw [calls_insert, Table.get?_set] at hc
    rw [insert_eq]
    by_cases hh : h = r.allocate.1
    · rw [if_pos hh, Option.some.injEq] at hc
      rw [← hc, contextFor]
      exact Nat.lt_succ_self _
    · rw [if_neg hh] at hc
      exact Nat.lt_succ_of_lt (hr.serial_lt h c hc)
  serial_inj := by
    intro h c h' c' hc hc' hserial
    rw [calls_insert, Table.get?_set] at hc hc'
    -- The new call has a serial number that no call had before.
    by_cases hh : h = r.allocate.1
    · by_cases hh' : h' = r.allocate.1
      · rw [hh, hh']
      · rw [if_pos hh, Option.some.injEq] at hc
        rw [if_neg hh'] at hc'
        have hlt := hr.serial_lt h' c' hc'
        rw [← hserial, ← hc, contextFor] at hlt
        exact absurd hlt (Nat.lt_irrefl _)
    · rw [if_neg hh] at hc
      by_cases hh' : h' = r.allocate.1
      · rw [if_pos hh', Option.some.injEq] at hc'
        have hlt := hr.serial_lt h c hc
        rw [hserial, ← hc', contextFor] at hlt
        exact absurd hlt (Nat.lt_irrefl _)
      · rw [if_neg hh'] at hc'
        exact hr.serial_inj h c h' c' hc hc' hserial

/-- A count that is stored after a release was stored before it, for another call, and
    has fallen by one at most. -/
theorem counted_of_release {h k : Handle} {c : Context} {n : Nat}
    (hlive : r.calls.get? h = some c) (hk : (r.release h).2.children.get? k = some n) :
    k ≠ h ∧ ∃ m, r.children.get? k = some m ∧ (m = n ∨ m = n + 1 ∧ 0 < n) := by
  rw [get?_children_release r h k c hlive] at hk
  by_cases hkh : k = h
  · rw [if_pos hkh] at hk
    exact absurd hk (by simp only [reduceCtorEq, not_false_eq_true])
  · rw [if_neg hkh] at hk
    refine ⟨hkh, ?_⟩
    by_cases hparent : c.parent = some k
    · -- The count of the parent falls by one and is dropped before it would reach zero.
      rw [if_pos hparent, Option.bind_eq_some_iff] at hk
      rcases hk with ⟨m, hm, hn⟩
      refine ⟨m, hm, Or.inr ?_⟩
      by_cases hle : m ≤ 1
      · rw [if_pos hle] at hn
        exact absurd hn (by simp only [reduceCtorEq, not_false_eq_true])
      · rw [if_neg hle, Option.some.injEq] at hn
        omega
    · rw [if_neg hparent] at hk
      exact ⟨n, hk, Or.inl rfl⟩

/-- A release keeps a registry consistent. -/
theorem release (hr : r.Consistent) (h : Handle) : (r.release h).2.Consistent := by
  cases hlive : r.calls.get? h with
  | none =>
      rw [release_of_none r h hlive]
      exact hr
  | some c =>
      refine ⟨?_, ?_, ?_, ?_, ?_, ?_⟩
      · -- The counters are those from before, and what is left of the tables was there before.
        rw [release_eq]
        exact hr.next_ne_zero
      · intro k n hk
        rcases counted_of_release hlive hk with ⟨hkh, m, hm, -⟩
        rw [calls_release, Table.get?_erase, if_neg hkh]
        exact hr.counted_live k m hm
      · intro k n hk
        rcases counted_of_release hlive hk with ⟨-, m, hm, hmn⟩
        have hpos := hr.counted_pos k m hm
        omega
      · intro k c' hk
        exact hr.handle_eq k c' (get?_of_release hk)
      · intro k c' hk
        rw [release_eq]
        exact hr.serial_lt k c' (get?_of_release hk)
      · intro k c₁ k' c₂ hk hk' hserial
        exact hr.serial_inj k c₁ k' c₂ (get?_of_release hk) (get?_of_release hk') hserial

end Consistent

/-- A registry that arises from the empty one. The context that a call is registered
    below may be that of a call that is no longer live. -/
inductive Reached : Registry → Prop
  | empty : Reached empty
  | register {r : Registry} (b : Binding) : Reached r → Reached (r.register b).2
  | registerChild {r : Registry} (parent : Context) (b : Binding) :
      Reached r → Reached (r.registerChild parent b).2
  | release {r : Registry} (h : Handle) : Reached r → Reached (r.release h).2

/-- Every registry that arises is consistent. -/
theorem Reached.consistent {r : Registry} (h : Reached r) : r.Consistent := by
  -- What a call is registered below need not be live, so its context is taken as it is given.
  induction h with
  | empty => exact consistent_empty
  | register b _ ih => exact ih.insert b none 0
  | registerChild parent b _ ih => exact ih.insert b (some parent.handle) parent.childDepth
  | release h _ ih => exact ih.release h

end Registry

end ContractHost
