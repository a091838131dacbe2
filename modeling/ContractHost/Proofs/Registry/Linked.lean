import ContractHost.Proofs.Registry.Map

/-!
# Chains of Live Calls

While something runs for a call that has been made by a call that has been made by a call, all of
them are live, and they lie in a chain. `Linked` is that chain, from the innermost call up to one
that has no call above it: every call is a child of the next one and lies one deeper, and the
next one has no other live child.

Other calls may be live besides. `Stacked` says that there is nothing but a chain besides those
that were live at some earlier time, and that nothing has happened to those.

A call that is registered below the innermost one of a chain becomes the innermost one. This
takes a free handle, and a depth that there is.

## Main definitions

* `Registry.Linked`: A chain of live calls, and how many children the innermost has.
* `Registry.Stacked`: The chain is all that is live besides what was live before.

## Theorems

* `Registry.Linked.depth_lt`: The calls of a chain lie less deep than the chain is long.
* `Registry.stacked_register`, `Registry.Stacked.push`: A chain of one call, and one call more.
* `Registry.Stacked.of_settled`: A chain stays what it is as long as the live calls do.
-/

namespace ContractHost

namespace Registry

/-- The calls are live, the innermost first, each is a child of the next one and lies one deeper,
    and the last one has no call above it. The first one has `n` live children, and the others
    have one. -/
inductive Linked (r : Registry) : (n : Nat) → List Handle → Prop
  | root {n h c} : r.live h = some c → c.parent = none → c.depth = 0 → r.childCount h = n →
      Linked r n [h]
  | child {n h c parent above} : r.live h = some c → c.parent = some parent →
      c.depth.toNat = above.length + 1 → r.childCount h = n → Linked r 1 (parent :: above) →
      Linked r n (h :: parent :: above)

/-- What is live now is what was live before, with the same contexts and the same number of
    children, and besides that the calls of a chain, the innermost of which has no child. -/
structure Stacked (before now : Registry) (calls : List Handle) : Prop where
  live_iff : ∀ h, ((∃ c, now.live h = some c) ∧ before.live h = none) ↔ h ∈ calls
  kept : ∀ h c, before.live h = some c → now.live h = some c
  counts : ∀ h c, before.live h = some c → now.childCount h = before.childCount h
  linked : now.Linked 0 calls

variable {r r' before now now' : Registry} {n m : Nat} {h k : Handle} {calls above : List Handle}

/-! ## Chains -/

/-- Every call of a chain lies less deep than the chain is long. -/
theorem Linked.depth_lt (hr : r.Linked n calls) :
    ∀ k ∈ calls, ∃ c, r.live k = some c ∧ c.depth.toNat < calls.length := by
  -- The innermost call lies deepest, so the bound grows with the chain.
  induction hr with
  | root hlive hparent hdepth hcount =>
      intro k hk
      rw [List.mem_singleton.mp hk]
      refine ⟨_, hlive, ?_⟩
      rw [hdepth]
      exact Nat.zero_lt_one
  | child hlive hparent hdepth hcount habove ih =>
      intro k hk
      rcases List.mem_cons.mp hk with rfl | hk
      · refine ⟨_, hlive, ?_⟩
        rw [hdepth, List.length_cons, List.length_cons]
        exact Nat.lt_succ_self _
      · rcases ih k hk with ⟨c, hc, hlt⟩
        exact ⟨c, hc, Nat.lt_succ_of_lt hlt⟩

/-- The innermost call lies as deep as there are calls above it. -/
theorem Linked.head (hr : r.Linked n (h :: above)) :
    ∃ c, r.live h = some c ∧ c.depth.toNat = above.length ∧ r.childCount h = n := by
  cases hr with
  | root hlive hparent hdepth hcount =>
      refine ⟨_, hlive, ?_, hcount⟩
      rw [hdepth]
      rfl
  | child hlive hparent hdepth hcount habove => exact ⟨_, hlive, hdepth, hcount⟩

/-- The innermost call is none of those above it. -/
theorem Linked.head_not_mem (hr : r.Linked n (h :: above)) : h ∉ above := by
  cases hr with
  | root hlive hparent hdepth hcount => exact List.not_mem_nil
  | child hlive hparent hdepth hcount habove =>
      intro hmem
      rcases habove.depth_lt h hmem with ⟨c, hc, hlt⟩
      -- It would lie less deep than itself.
      rw [hlive, Option.some.injEq] at hc
      rw [← hc, hdepth, List.length_cons] at hlt
      exact Nat.lt_irrefl _ hlt

/-- A chain is one wherever its calls are live with the same contexts and counts. -/
theorem Linked.congr (hr : r.Linked n calls) (hlive : ∀ k ∈ calls, r'.live k = r.live k)
    (hcount : ∀ k ∈ calls, r'.childCount k = r.childCount k) : r'.Linked n calls := by
  induction hr with
  | root hlive' hparent hdepth hcount' =>
      exact .root ((hlive _ (List.mem_singleton_self _)).trans hlive') hparent hdepth
        ((hcount _ (List.mem_singleton_self _)).trans hcount')
  | child hlive' hparent hdepth hcount' habove ih =>
      refine .child ((hlive _ List.mem_cons_self).trans hlive') hparent hdepth
        ((hcount _ List.mem_cons_self).trans hcount') ?_
      exact ih (fun k hk => hlive k (List.mem_cons_of_mem _ hk))
        (fun k hk => hcount k (List.mem_cons_of_mem _ hk))

/-- The chain is the same if only the innermost call has got another number of children. -/
theorem Linked.recount (hr : r.Linked n (h :: above))
    (hlive : ∀ k ∈ h :: above, r'.live k = r.live k) (hhead : r'.childCount h = m)
    (hcount : ∀ k ∈ above, r'.childCount k = r.childCount k) : r'.Linked m (h :: above) := by
  have hmem := List.mem_cons_self (a := h) (l := above)
  cases hr with
  | root hlive' hparent hdepth hcount' =>
      exact .root ((hlive _ hmem).trans hlive') hparent hdepth hhead
  | child hlive' hparent hdepth hcount' habove =>
      refine .child ((hlive _ hmem).trans hlive') hparent hdepth hhead ?_
      exact habove.congr (fun k hk => hlive k (List.mem_cons_of_mem _ hk)) hcount

/-! ## Chains besides what was live before -/

/-- A call that is registered at the top is a chain of one. -/
theorem stacked_register (hr : r.Consistent) (hroom : r.size < Word.top) (b : Binding) :
    r.Stacked (r.register b).2 [(r.register b).1] := by
  have hfree : r.live r.allocate.1 = none := allocate_free r hr hroom
  have hhandle : (r.register b).1 = r.allocate.1 := by rw [register, insert_eq]
  have hlive := live_insert r b none 0
  have hnew : (r.register b).2.live r.allocate.1 = some (r.contextFor b none 0) :=
    (hlive _).trans (if_pos rfl)
  have hold : ∀ k, k ≠ r.allocate.1 → (r.register b).2.live k = r.live k :=
    fun k hk => (hlive k).trans (if_neg hk)
  rw [hhandle]
  refine ⟨fun k => ?_, fun k c hc => ?_, fun k c hc => childCount_register r b k, ?_⟩
  · -- Nothing else has become live, so what was not live before is the new call.
    rw [List.mem_singleton]
    constructor
    · rintro ⟨⟨c, hc⟩, hnone⟩
      by_contra hk
      rw [hold k hk, hnone] at hc
      cases hc
    · rintro rfl
      exact ⟨⟨_, hnew⟩, hfree⟩
  · have hk : k ≠ r.allocate.1 := by
      rintro rfl
      rw [hfree] at hc
      cases hc
    rw [hold k hk, hc]
  · refine .root hnew rfl rfl ?_
    rw [childCount_register, hr.childCount_of_free hfree]

namespace Stacked

/-- A chain stays what it is as long as the live calls do. -/
theorem of_settled (h : before.Stacked now calls) (hsettled : now.Settled now') :
    before.Stacked now' calls := by
  -- All that a chain speaks of is read from the two tables that have settled.
  have hlive : ∀ k, now'.live k = now.live k := by
    intro k
    unfold live
    rw [hsettled.calls]
  have hcount : ∀ k, now'.childCount k = now.childCount k := by
    intro k
    unfold childCount
    rw [hsettled.children]
  refine ⟨fun k => ?_, fun k c hc => ?_, fun k c hc => ?_, ?_⟩
  · rw [hlive]
    exact h.live_iff k
  · rw [hlive]
    exact h.kept k c hc
  · rw [hcount]
    exact h.counts k c hc
  · exact h.linked.congr (fun k _ => hlive k) (fun k _ => hcount k)

/-- A call that is registered below the innermost one becomes the innermost one, if there is a
    free handle for it and a depth below that of the innermost one. -/
theorem push (h : before.Stacked now (k :: above)) (hnow : now.Consistent)
    (hroom : now.size < Word.top) {ctx : Context} (hctx : now.live k = some ctx)
    (hdepth : above.length + 1 < UInt32.size) (b : Binding) :
    before.Stacked (now.registerChild ctx b).2 ((now.registerChild ctx b).1 :: k :: above) := by
  have hfree : now.live now.allocate.1 = none := allocate_free now hnow hroom
  have hhandle : (now.registerChild ctx b).1 = now.allocate.1 := by rw [registerChild, insert_eq]
  have hk : ctx.handle = k := hnow.handle_eq k ctx hctx
  have hlive := live_insert now b (some ctx.handle) ctx.childDepth
  have hnew : (now.registerChild ctx b).2.live now.allocate.1 =
      some (now.contextFor b (some ctx.handle) ctx.childDepth) := (hlive _).trans (if_pos rfl)
  have hold : ∀ j, j ≠ now.allocate.1 → (now.registerChild ctx b).2.live j = now.live j :=
    fun j hj => (hlive j).trans (if_neg hj)
  -- A call that is live now has a handle of its own.
  have hother : ∀ j c, now.live j = some c → j ≠ now.allocate.1 := by
    rintro j c hc rfl
    rw [hfree] at hc
    cases hc
  have hcount := childCount_registerChild (hk ▸ hctx) b
  rw [hk] at hcount
  have hchain : ∀ j ∈ k :: above, (now.registerChild ctx b).2.live j = now.live j := by
    intro j hj
    rcases h.linked.depth_lt j hj with ⟨c, hc, -⟩
    exact hold j (hother j c hc)
  rw [hhandle]
  refine ⟨fun j => ?_, fun j c hc => ?_, fun j c hc => ?_, ?_⟩
  · -- The new call was not live before either, since it is not live yet.
    rw [List.mem_cons, ← h.live_iff j]
    by_cases hj : j = now.allocate.1
    · have hbefore : before.live j = none := by
        cases hc : before.live j with
        | none => rfl
        | some c => exact absurd hj (hother j c (h.kept j c hc))
      rw [hj] at hbefore ⊢
      exact ⟨fun _ => Or.inl rfl, fun _ => ⟨⟨_, hnew⟩, hbefore⟩⟩
    · rw [hold j hj]
      exact ⟨Or.inr, fun hmem => hmem.resolve_left hj⟩
  · have hc' := h.kept j c hc
    rw [hold j (hother j c hc'), hc']
  · -- The count has changed for a call of the chain, and no call of the chain was live before.
    have hne : j ≠ k := by
      rintro rfl
      rw [((h.live_iff j).mpr List.mem_cons_self).2] at hc
      cases hc
    rw [hcount, if_neg hne]
    exact h.counts j c hc
  · -- The new call stands before the chain, whose innermost call has got its one child by that.
    rcases h.linked.head with ⟨c, hc, hdeep, hnone⟩
    rw [hctx, Option.some.injEq] at hc
    refine .child hnew ?_ ?_ ?_ (h.linked.recount hchain ?_ fun j hj => ?_)
    · rw [← hk]
      rfl
    · change ctx.childDepth.toNat = above.length + 1
      rw [Context.toNat_childDepth, hc, hdeep]
      omega
    · -- No count has been left behind for a handle that was free.
      rw [hcount, if_neg (hother k ctx hctx).symm, hnow.childCount_of_free hfree]
    · rw [hcount, if_pos rfl, hnone]
    · rw [hcount, if_neg]
      rintro rfl
      exact h.linked.head_not_mem hj

end Stacked

end Registry

end ContractHost
