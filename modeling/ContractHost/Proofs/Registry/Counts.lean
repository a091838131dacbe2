import ContractHost.Proofs.Registry.Map
import ContractHost.Proofs.Small
import Mathlib.Data.List.Induction

/-!
# Counts of Live Children

A registry counts the live children of a call as they come and go, and it can also list them,
by looking through all live calls. This file compares the two.

A count may be wrong and still do no harm. Once the counter has come around, a call may have
the handle of one that has been released, and the orphans of the old call are listed as
children of the new one, which has never counted them. Even then a stored count is at least
one and belongs to a live call, so what is taken off when a child is released is there to be
taken off.

As long as no handle has been handed out twice, the counts are right. What makes it so is that
a call is registered below a context that has been looked up before: its parent's handle has
been handed out, so no later call gets it, and the children that are listed for a live call have
all been registered while it was live. `Registry.Accounts` is the invariant.

## Main definitions

* `Registry.Grounded`: Calls are registered below contexts that have been looked up before.
* `Registry.Accounts`: The count of a live call is the number of its children.

## Theorems

* `Registry.childCount_insert_of_live`, `Registry.childCount_release`: A count after a
  registration and after a release.
* `Registry.length_childrenOf`: The number of children as a sum over the live calls.
* `Registry.live_after`: The handle of a live call has been handed out.
* `Registry.Accounts.insert`, `Registry.Accounts.release`: The invariant is kept.
* `Registry.children_are_counted`: Requests in a row.
-/

namespace ContractHost

namespace Registry

variable {r : Registry} {issued : List Handle}

/-! ## Counts after one operation -/

/-- The count of a call that is live after a registration. -/
theorem childCount_insert_of_live {b : Binding} {parent : Option Handle} {depth : UInt32}
    {k : Handle} {c : Context} (hlive : (r.insert b parent depth).2.live k = some c) :
    (r.insert b parent depth).2.childCount k =
      r.childCount k + if parent = some k then 1 else 0 := by
  have hcontains : (r.insert b parent depth).2.calls.contains k = true :=
    (Table.contains_iff _ _).mpr ⟨c, hlive⟩
  rw [childCount_insert]
  by_cases hparent : parent = some k
  · rw [if_pos ⟨hparent, hcontains⟩, if_pos hparent]
  · rw [if_neg (fun h => hparent h.1), if_neg hparent, Nat.add_zero]

/-- A release takes one child off the count of the parent. -/
theorem childCount_release {h k : Handle} {c : Context} (hlive : r.live h = some c)
    (hk : k ≠ h) :
    (r.release h).2.childCount k = r.childCount k - if c.parent = some k then 1 else 0 := by
  have hcount := get?_children_release r h k c hlive
  unfold childCount Table.getD
  rw [hcount, if_neg hk]
  by_cases hparent : c.parent = some k
  · rw [if_pos hparent, if_pos hparent]
    cases r.children.get? k with
    | none => rfl
    | some n =>
        -- A count of one is not stored as zero, but is no longer stored.
        by_cases hn : n ≤ 1
        · simp only [Option.bind_some, if_pos hn, Option.getD_none, Option.getD_some]
          omega
        · simp only [Option.bind_some, if_neg hn, Option.getD_some]
  · rw [if_neg hparent, if_neg hparent, Nat.sub_zero]

/-- The number of children as a sum over all live calls. -/
theorem length_childrenOf (r : Registry) (h : Handle) :
    (r.childrenOf h).length = r.calls.sumOf fun c => if c.parent = some h then 1 else 0 := by
  unfold childrenOf
  rw [List.length_map, Table.length_filter_values]
  simp only [decide_eq_true_eq]

/-! ## Requests in a row -/

theorem after_append (r : Registry) (qs qs' : List Request) :
    r.after (qs ++ qs') = (r.after qs).after qs' := by
  induction qs generalizing r with
  | nil => rfl
  | cons q qs ih => exact ih (r.serve q).2

theorem handedOut_append (r : Registry) (qs qs' : List Request) :
    r.handedOut (qs ++ qs') = r.handedOut qs ++ (r.after qs).handedOut qs' := by
  induction qs generalizing r with
  | nil => rfl
  | cons q qs ih =>
      cases q with
      | register b => exact congrArg _ (ih _)
      | registerChild parent b => exact congrArg _ (ih _)
      | lookup h => exact ih r
      | contains h => exact ih r
      | release h => exact ih _
      | childrenOf h => exact ih r
      | size => exact ih r

/-- A call that is live after some requests was live before them, or its handle has been handed
    out by one of them. -/
theorem live_after {qs : List Request} {h : Handle} {c : Context}
    (hlive : (r.after qs).live h = some c) : r.live h = some c ∨ h ∈ r.handedOut qs := by
  induction qs generalizing r with
  | nil => exact Or.inl hlive
  | cons q qs ih =>
      -- Both registrations come down to one entry in the table, so this is shown for any of them.
      have hinsert : ∀ b parent depth,
          ((r.insert b parent depth).2.live h = some c ∨
            h ∈ (r.insert b parent depth).2.handedOut qs) →
          r.live h = some c ∨
            h ∈ (r.insert b parent depth).1 :: (r.insert b parent depth).2.handedOut qs := by
        intro b parent depth hor
        rcases hor with hnow | hlater
        · have hhandle : (r.insert b parent depth).1 = r.allocate.1 := by rw [insert_eq]
          rw [live_insert] at hnow
          by_cases hnew : h = r.allocate.1
          · exact Or.inr (by rw [hhandle, hnew]; exact List.mem_cons_self)
          · rw [if_neg hnew] at hnow
            exact Or.inl hnow
        · exact Or.inr (List.mem_cons_of_mem _ hlater)
      have hrest := ih hlive
      cases q with
      | register b => exact hinsert b none 0 hrest
      | registerChild parent b =>
          exact hinsert b (some parent.handle) parent.childDepth hrest
      | release k => exact hrest.imp_left get?_of_release
      | lookup k => exact hrest
      | contains k => exact hrest
      | childrenOf k => exact hrest
      | size => exact hrest

/-- Every call that is registered below a context is registered below one that has been looked
    up at some earlier time. The context's own call may have been released since. -/
def Grounded (qs : List Request) : Prop :=
  ∀ i parent b, qs[i]? = some (.registerChild parent b) →
    ∃ j, j ≤ i ∧ (empty.after (qs.take j)).lookup parent.handle = .ok parent

theorem Grounded.of_append {qs qs' : List Request} (h : Grounded (qs ++ qs')) : Grounded qs := by
  intro i parent b hi
  have hlt : i < qs.length := (List.getElem?_eq_some_iff.mp hi).1
  rcases h i parent b (by rw [List.getElem?_append_left hlt, hi]) with ⟨j, hj, hlookup⟩
  rw [List.take_append_of_le_length (by omega)] at hlookup
  exact ⟨j, hj, hlookup⟩

/-- The handle of the context has been handed out. -/
theorem Grounded.parent_issued {qs : List Request} {parent : Context} {b : Binding}
    (h : Grounded (qs ++ [.registerChild parent b])) : parent.handle ∈ empty.handedOut qs := by
  rcases h qs.length parent b List.getElem?_concat_length with ⟨j, hj, hlookup⟩
  rw [List.take_append_of_le_length hj] at hlookup
  -- The handle was live after the first requests, so it is one of those that they handed out.
  rw [← List.take_append_drop j qs, handedOut_append]
  rcases live_after (lookup_eq_ok_iff.mp hlookup) with hempty | hissued
  · cases hempty
  · exact List.mem_append_left _ hissued

/-! ## The invariant -/

/-- The count of a live call is the number of live calls that are listed as its children, and
    the parents of the live calls are among the handles handed out. -/
structure Accounts (r : Registry) (issued : List Handle) : Prop where
  parent_issued : ∀ h c p, r.live h = some c → c.parent = some p → p ∈ issued
  count_eq : ∀ h c, r.live h = some c → r.childCount h = (r.childrenOf h).length

/-- A call under a handle that has not been handed out before is counted for its parent and has
    no children itself. -/
theorem Accounts.insert (ha : r.Accounts issued) (hr : r.Consistent)
    (hnew : r.allocate.1 ∉ issued) (hfree : r.live r.allocate.1 = none) (b : Binding)
    {parent : Option Handle} (hparent : ∀ p, parent = some p → p ∈ issued) (depth : UInt32) :
    (r.insert b parent depth).2.Accounts (issued ++ [r.allocate.1]) := by
  constructor
  · intro h c p hc hp
    rw [live_insert] at hc
    by_cases hh : h = r.allocate.1
    · -- The new call's parent has been handed out before, as all others have.
      rw [if_pos hh, Option.some.injEq] at hc
      rw [← hc] at hp
      exact List.mem_append_left _ (hparent p hp)
    · rw [if_neg hh] at hc
      exact List.mem_append_left _ (ha.parent_issued h c p hc hp)
  · intro h c hc
    rw [childCount_insert_of_live hc, length_childrenOf, calls_insert]
    have hsum := Table.sumOf_set (fun c : Context => if c.parent = some h then 1 else 0) r.calls
      r.allocate.1 (r.contextFor b parent depth)
    have hentry : r.calls.get? r.allocate.1 = none := hfree
    rw [hentry, Option.elim_none, Nat.add_zero] at hsum
    -- What has been counted so far is what has been listed so far, also for the new call.
    have hsofar : r.childCount h =
        r.calls.sumOf fun c => if c.parent = some h then 1 else 0 := by
      by_cases hh : h = r.allocate.1
      · have hnone : r.calls.sumOf (fun c => if c.parent = some h then 1 else 0) = 0 := by
          refine Table.sumOf_eq_zero (fun k c' hc' => if_neg (fun hp => hnew ?_))
          rw [← hh]
          exact ha.parent_issued k c' h hc' hp
        rw [hnone, hh]
        exact hr.childCount_of_free hfree
      · rw [live_insert, if_neg hh] at hc
        rw [ha.count_eq h c hc, length_childrenOf]
    rw [hsum, hsofar]
    rfl

/-- A release takes the call off the list and one off the count of its parent. -/
theorem Accounts.release (ha : r.Accounts issued) (h : Handle) :
    (r.release h).2.Accounts issued := by
  cases hlive : r.live h with
  | none =>
      have hsame : r.release h = (false, r) := release_of_none r h hlive
      rw [hsame]
      exact ha
  | some gone =>
      constructor
      · intro k c p hc hp
        exact ha.parent_issued k c p (get?_of_release hc) hp
      · intro k c hc
        have hk : k ≠ h := by
          rintro rfl
          unfold live at hc
          rw [calls_release, Table.get?_erase, if_pos rfl] at hc
          cases hc
        -- The sum over the others is what is left of the one over all.
        have hsum := Table.sumOf_erase (fun c : Context => if c.parent = some k then 1 else 0)
          r.calls h
        have hentry : r.calls.get? h = some gone := hlive
        have hcount := ha.count_eq k c (get?_of_release hc)
        rw [length_childrenOf] at hcount
        rw [hentry, Option.elim_some] at hsum
        rw [childCount_release hlive hk, length_childrenOf, calls_release, hcount]
        omega

/-- As long as no handle has been handed out twice, the counts are right. -/
theorem accounts_after {qs : List Request} (hground : Grounded qs)
    (hnodup : (empty.handedOut qs).Nodup) : (empty.after qs).Accounts (empty.handedOut qs) := by
  -- The last request is taken off, since what it meets depends on those before it.
  induction qs using List.reverseRecOn with
  | nil =>
      constructor
      · intro h c p hc
        cases hc
      · intro h c hc
        cases hc
  | append_singleton qs q ih =>
      have hconsistent := consistent_after consistent_empty qs
      rw [handedOut_append] at hnodup ⊢
      rw [after_append]
      have ha := ih hground.of_append (List.nodup_append.mp hnodup).1
      have hinsert : ∀ b parent depth, (∀ p, parent = some p → p ∈ empty.handedOut qs) →
          (empty.handedOut qs ++ [((empty.after qs).insert b parent depth).1]).Nodup →
          ((empty.after qs).insert b parent depth).2.Accounts
            (empty.handedOut qs ++ [((empty.after qs).insert b parent depth).1]) := by
        intro b parent depth hparent hnodup
        have hhandle : ((empty.after qs).insert b parent depth).1 =
            (empty.after qs).allocate.1 := by rw [insert_eq]
        rw [hhandle] at hnodup ⊢
        have hnew : (empty.after qs).allocate.1 ∉ empty.handedOut qs := by
          intro hmem
          exact (List.nodup_append.mp hnodup).2.2 _ hmem _ (List.mem_singleton_self _) rfl
        -- A live call has been handed out, so the handle is free.
        have hfree : (empty.after qs).live (empty.after qs).allocate.1 = none := by
          cases hlive : (empty.after qs).live (empty.after qs).allocate.1 with
          | none => rfl
          | some c =>
              rcases live_after hlive with hempty | hissued
              · cases hempty
              · exact absurd hissued hnew
        exact ha.insert hconsistent hnew hfree b hparent depth
      cases q with
      | register b =>
          refine hinsert b none 0 (fun p hp => ?_) hnodup
          cases hp
      | registerChild parent b =>
          refine hinsert b (some parent.handle) parent.childDepth (fun p hp => ?_) hnodup
          rw [← Option.some.inj hp]
          exact hground.parent_issued
      | release h =>
          change ((empty.after qs).release h).2.Accounts (empty.handedOut qs ++ [])
          rw [List.append_nil]
          exact ha.release h
      | lookup h => exact (List.append_nil (empty.handedOut qs)).symm ▸ ha
      | contains h => exact (List.append_nil (empty.handedOut qs)).symm ▸ ha
      | childrenOf h => exact (List.append_nil (empty.handedOut qs)).symm ▸ ha
      | size => exact (List.append_nil (empty.handedOut qs)).symm ▸ ha

/-- After any requests, a stored count is at least one and belongs to a live call. So a release
    that finds a count for the parent can take one off it, and what remains is counted unless
    the parent is the call that is released. As long as no handle has been handed out twice,
    the count of a live call is the number of its children. A call that is not live has a count
    of zero, though its orphans are still listed. -/
theorem children_are_counted {qs : List Request} (hground : Grounded qs) :
    (∀ h n, (empty.after qs).children.get? h = some n →
        1 ≤ n ∧ ∃ c, (empty.after qs).live h = some c) ∧
      (∀ h c p n, (empty.after qs).live h = some c → c.parent = some p →
        (empty.after qs).children.get? p = some n →
        ∃ m, n = m + 1 ∧ (p ≠ h → ((empty.after qs).release h).2.childCount p = m)) ∧
      ((empty.handedOut qs).Nodup →
        (∀ p c, (empty.after qs).live p = some c →
          (empty.after qs).childCount p = ((empty.after qs).childrenOf p).length) ∧
        ∀ p, (empty.after qs).live p = none → (empty.after qs).childCount p = 0) ∧
      ∀ p k, k ∈ (empty.after qs).childrenOf p ↔
        ∃ c, (empty.after qs).live k = some c ∧ c.parent = some p := by
  have hconsistent := consistent_after consistent_empty qs
  refine ⟨fun h n hn => ?_, fun h c p n hlive hparent hn => ?_, fun hnodup => ?_, ?_⟩
  · exact ⟨hconsistent.counted_pos h n hn, hconsistent.counted_live h n hn⟩
  · -- A stored count is positive, so there is one to take off.
    have hpos := hconsistent.counted_pos p n hn
    refine ⟨n - 1, by omega, fun hp => ?_⟩
    have hcount : (empty.after qs).childCount p = n := by
      unfold childCount Table.getD
      rw [hn, Option.getD_some]
    rw [childCount_release hlive hp, if_pos hparent, hcount]
  · exact ⟨(accounts_after hground hnodup).count_eq,
      fun p hfree => hconsistent.childCount_of_free hfree⟩
  · exact mem_childrenOf_iff hconsistent

/-- Two calls are registered below a first one. When one of the two and the first one have been
    released, a third is registered below the context of the first, and a call below the one
    that is left. -/
def Request.abandoned : List Request :=
  [.register .small, .registerChild Context.small .small, .registerChild Context.small .small,
    .release ⟨2⟩, .release ⟨1⟩, .registerChild Context.small .small,
    .registerChild ⟨⟨3⟩, some ⟨1⟩, 1, .small, 2⟩ .small]

/-- The first call is no longer counted for, and two orphans of it are listed. The one that has
    been left has a child, and that one is counted. -/
theorem children_are_counted_of_orphans :
    (empty.after Request.abandoned).childCount ⟨1⟩ = 0 ∧
      (empty.after Request.abandoned).childrenOf ⟨1⟩ = [⟨3⟩, ⟨4⟩] ∧
      (empty.after Request.abandoned).childCount ⟨3⟩ = 1 := by
  have hground : Grounded Request.abandoned := by
    intro i parent b hi
    -- The first call has been looked up after the first request, the third after the third.
    match i, hi with
    | 1, rfl | 2, rfl | 5, rfl => exact ⟨1, by omega, rfl⟩
    | 6, rfl => exact ⟨3, by omega, rfl⟩
  have hnodup : (empty.handedOut Request.abandoned).Nodup := by decide
  rcases (children_are_counted hground).2.2.1 hnodup with ⟨hlive, hfree⟩
  refine ⟨hfree ⟨1⟩ rfl, rfl, ?_⟩
  rw [hlive ⟨3⟩ _ rfl]
  rfl

end Registry

end ContractHost
