import ContractHost.Proofs.Registry.Restoration
import ContractHost.Proofs.Small
import Mathlib.Data.List.Range

/-!
# Registries as Finite Maps

Whoever uses a registry need not know about its counter, its search for free handles or its
counts of children. To its users a registry is a finite map from handles to contexts, and this
file says so for requests in a row, however many there are and in whatever order: also when
calls are released out of order or twice, when calls are registered below contexts whose own
calls are long gone, and after the counter has come around.

`CallMap.Answers` is the map's side of it. It says of every request what may be handed back
and what the map is afterwards, and it does not look at a registry. A registration may pick
any handle that is free, and everything else is determined.

That a handle is free when it is handed out does not mean that it is new. It may have been
another call's before. It takes as many registrations as there are words other than zero for
that to happen: up to there the counter has only gone up, and the handles are the numbers
from one on.

## Main definitions

* `Registry.Request`, `Registry.Answer`, `Registry.serve`: What a registry may be asked for.
* `Registry.after`, `Registry.handedOut`: Requests in a row, and the handles they hand out.
* `CallMap`, `CallMap.Answers`: A finite map from handles to contexts, and how it answers.
* `Registry.Ascending`: The counter has not come around yet.

## Theorems

* `Registry.serve_answers`: A request is answered as the map answers it.
* `Registry.handedOut_eq`: The handles are numbered through.
* `Registry.serves_as_map`: Requests in a row.
-/

namespace ContractHost

/-- The handles of the calls that are live, with their contexts. -/
abbrev CallMap := Handle → Option Context

namespace Registry

/-- What a registry may be asked for. The context that a call is registered below may be any,
    in particular one that has been looked up before and whose call has been released since. -/
inductive Request
  | register (b : Binding)
  | registerChild (parent : Context) (b : Binding)
  | lookup (h : Handle)
  | contains (h : Handle)
  | release (h : Handle)
  | childrenOf (h : Handle)
  | size

/-- What a registry hands back. -/
inductive Answer
  | handle (h : Handle)
  | context (found : Except HostError Context)
  | truth (b : Bool)
  | handles (hs : List Handle)
  | count (n : Nat)

/-- Whether a call is registered. -/
def Request.registers : Request → Bool
  | .register _ => true
  | .registerChild _ _ => true
  | _ => false

/-- Serves a request. -/
def serve (r : Registry) : Request → Answer × Registry
  | .register b => (.handle (r.register b).1, (r.register b).2)
  | .registerChild parent b => (.handle (r.registerChild parent b).1, (r.registerChild parent b).2)
  | .lookup h => (.context (r.lookup h), r)
  | .contains h => (.truth (r.calls.contains h), r)
  | .release h => (.truth (r.release h).1, (r.release h).2)
  | .childrenOf h => (.handles (r.childrenOf h), r)
  | .size => (.count r.size, r)

/-- The registry after requests in a row. -/
def after (r : Registry) : List Request → Registry
  | [] => r
  | q :: qs => (r.serve q).2.after qs

/-- The handles that requests in a row hand out to new calls. -/
def handedOut (r : Registry) : List Request → List Handle
  | [] => []
  | q :: qs => match r.serve q with
    | (.handle h, r') => h :: r'.handedOut qs
    | (_, r') => r'.handedOut qs

/-- The live calls of a registry. -/
def live (r : Registry) : CallMap := r.calls.get?

end Registry

namespace CallMap

/-- A call has been added under a handle that was free, and nothing else has changed. -/
structure Adds (m m' : CallMap) (h : Handle) (parent : Option Handle) (depth : Nat)
    (b : Binding) : Prop where
  ne_none : h ≠ .none
  free : m h = none
  added : ∃ c, m' h = some c ∧ c.handle = h ∧ c.parent = parent ∧ c.depth.toNat = depth ∧
    c.binding = b
  others : ∀ k, k ≠ h → m' k = m k

/-- A map is never the same with a call added to it. -/
theorem Adds.ne {m m' : CallMap} {h : Handle} {parent : Option Handle} {depth : Nat} {b : Binding}
    (hadds : m.Adds m' h parent depth b) : m' ≠ m := by
  -- The new call is in the one map and missing in the other.
  intro hsame
  rcases hadds.added with ⟨c, hc, -⟩
  have hfree := hadds.free
  rw [← hsame, hc] at hfree
  cases hfree

/-- What may be handed back for a request, and what the map is afterwards. -/
def Answers (m : CallMap) : Registry.Request → Registry.Answer → CallMap → Prop
  | .register b, .handle h, m' => m.Adds m' h none 0 b
  | .registerChild parent b, .handle h, m' =>
    m.Adds m' h (some parent.handle) (min (parent.depth.toNat + 1) (UInt32.size - 1)) b
  | .lookup h, .context found, m' =>
    m' = m ∧ (∀ c, found = .ok c ↔ m h = some c) ∧ ∀ c, found = .ok c → c.handle = h
  | .contains h, .truth b, m' => m' = m ∧ (b = true ↔ ∃ c, m h = some c)
  | .release h, .truth b, m' =>
    (b = true ↔ ∃ c, m h = some c) ∧ m' h = none ∧ ∀ k, k ≠ h → m' k = m k
  | .childrenOf h, .handles hs, m' =>
    m' = m ∧ hs.Pairwise (· < ·) ∧ ∀ k, k ∈ hs ↔ ∃ c, m k = some c ∧ c.parent = some h
  | .size, .count n, m' =>
    m' = m ∧ ∃ hs : List Handle, hs.Nodup ∧ hs.length = n ∧ ∀ k, k ∈ hs ↔ ∃ c, m k = some c
  | _, _, _ => False

end CallMap

/-- A child lies one deeper than its parent, as far as there are words for it. -/
theorem Context.toNat_childDepth (c : Context) :
    c.childDepth.toNat = min (c.depth.toNat + 1) (UInt32.size - 1) := by
  have hlt := c.depth.toNat_lt
  unfold childDepth
  by_cases h : c.depth.toNat + 1 < UInt32.size
  · rw [if_pos h, UInt32.toNat_add]
    change (c.depth.toNat + 1) % 2 ^ 32 = _
    unfold UInt32.size at h ⊢
    omega
  · rw [if_neg h]
    unfold UInt32.size at h ⊢
    omega

namespace Registry

variable {r : Registry}

/-! ## One request -/

theorem consistent_serve (hr : r.Consistent) (q : Request) : (r.serve q).2.Consistent := by
  cases q with
  | register b => exact hr.insert b none 0
  | registerChild parent b => exact hr.insert b (some parent.handle) parent.childDepth
  | release h => exact hr.release h
  | lookup h => exact hr
  | contains h => exact hr
  | childrenOf h => exact hr
  | size => exact hr

theorem live_insert (r : Registry) (b : Binding) (parent : Option Handle) (depth : UInt32)
    (k : Handle) :
    (r.insert b parent depth).2.live k =
      if k = r.allocate.1 then some (r.contextFor b parent depth) else r.live k := by
  unfold live
  rw [calls_insert, Table.get?_set]

/-- With room for one more call, a registration adds one under a handle that was free. -/
theorem insert_adds (hr : r.Consistent) (hroom : r.size < Word.top) (b : Binding)
    (parent : Option Handle) (depth : UInt32) :
    r.live.Adds (r.insert b parent depth).2.live (r.insert b parent depth).1 parent depth.toNat
      b := by
  have hhandle : (r.insert b parent depth).1 = r.allocate.1 := by rw [insert_eq]
  have hentry := live_insert r b parent depth
  rw [hhandle]
  refine ⟨?_, allocate_free r hr hroom, ⟨r.contextFor b parent depth, ?_, ?_⟩, fun k hk => ?_⟩
  · -- The search goes through the words other than zero, from one of them.
    intro hzero
    exact search_ne_zero r.calls r.calls.size hr.next_ne_zero (congrArg Handle.id hzero)
  · rw [hentry, if_pos rfl]
  · exact ⟨rfl, rfl, rfl, rfl⟩
  · rw [hentry, if_neg hk]

/-- A call that is not live has no children. -/
theorem Consistent.childCount_of_free (hr : r.Consistent) {k : Handle} (hfree : r.live k = none) :
    r.childCount k = 0 := by
  unfold childCount Table.getD
  cases hcount : r.children.get? k with
  | none => rfl
  | some n =>
      rcases hr.counted_live k n hcount with ⟨c, hc⟩
      unfold live at hfree
      rw [hfree] at hc
      cases hc

/-- A registration counts one child more for the parent, if that is live by then, and none for
    any other call. -/
theorem childCount_insert (r : Registry) (b : Binding) (parent : Option Handle) (depth : UInt32)
    (k : Handle) :
    (r.insert b parent depth).2.childCount k =
      if parent = some k ∧ (r.insert b parent depth).2.calls.contains k = true then
        r.childCount k + 1
      else r.childCount k := by
  have hcount := get?_children_insert r b parent depth k
  unfold childCount Table.getD at hcount ⊢
  rw [hcount]
  split
  · rfl
  · rfl

/-- A registration at the top counts no child. -/
theorem childCount_register (r : Registry) (b : Binding) (k : Handle) :
    (r.register b).2.childCount k = r.childCount k := by
  unfold register
  rw [childCount_insert, if_neg (fun h => nomatch h.1)]

/-- A registration below a live call counts one child more for it, and none for any other. -/
theorem childCount_registerChild {parent c : Context} (hlive : r.live parent.handle = some c)
    (b : Binding) (k : Handle) :
    (r.registerChild parent b).2.childCount k =
      if k = parent.handle then r.childCount k + 1 else r.childCount k := by
  -- The parent is there afterwards too, even where the new call has been entered over it.
  have hstill : (r.registerChild parent b).2.calls.contains parent.handle = true := by
    have hentry := live_insert r b (some parent.handle) parent.childDepth parent.handle
    rw [Table.contains_iff]
    by_cases h : parent.handle = r.allocate.1
    · exact ⟨_, hentry.trans (if_pos h)⟩
    · exact ⟨c, hentry.trans ((if_neg h).trans hlive)⟩
  unfold registerChild at hstill ⊢
  rw [childCount_insert]
  by_cases hk : k = parent.handle
  · rw [if_pos hk, if_pos ⟨by rw [hk], by rw [hk]; exact hstill⟩]
  · rw [if_neg hk, if_neg (fun h => hk (Option.some.inj h.1).symm)]

/-- The handles of the live calls below a call, in the order of the table. -/
theorem childrenOf_eq (hr : r.Consistent) (h : Handle) :
    r.childrenOf h = (r.calls.entries.filter fun e => e.2.parent = some h).map (·.1) := by
  unfold childrenOf Table.values
  rw [List.filter_map, List.map_map]
  refine List.map_congr_left (fun e he => ?_)
  -- A context carries the handle that it is found under.
  have hmem : (e.1, e.2) ∈ r.calls.entries := (List.mem_filter.mp he).1
  exact hr.handle_eq e.1 e.2 ((Table.mem_entries_iff r.calls e.1 e.2).mp hmem)

theorem pairwise_childrenOf (hr : r.Consistent) (h : Handle) :
    (r.childrenOf h).Pairwise (· < ·) := by
  -- The entries of the table are in ascending order, and a filter keeps the order.
  rw [childrenOf_eq hr, List.pairwise_map]
  exact r.calls.ascending.filter _

/-- The children of a call are the live calls that have it for a parent. -/
theorem mem_childrenOf_iff (hr : r.Consistent) (h k : Handle) :
    k ∈ r.childrenOf h ↔ ∃ c, r.live k = some c ∧ c.parent = some h := by
  rw [childrenOf_eq hr, List.mem_map]
  constructor
  · rintro ⟨⟨k', c⟩, he, rfl⟩
    rw [List.mem_filter, Table.mem_entries_iff, decide_eq_true_iff] at he
    exact ⟨c, he.1, he.2⟩
  · rintro ⟨c, hc, hparent⟩
    refine ⟨(k, c), ?_, rfl⟩
    rw [List.mem_filter, Table.mem_entries_iff, decide_eq_true_iff]
    exact ⟨hc, hparent⟩

theorem keys_live (r : Registry) :
    r.calls.keys.Nodup ∧ r.calls.keys.length = r.size ∧
      ∀ k, k ∈ r.calls.keys ↔ ∃ c, r.live k = some c := by
  -- Ascending keys are all different.
  refine ⟨?_, List.length_map _, fun k => ?_⟩
  · unfold Table.keys List.Nodup
    rw [List.pairwise_map]
    exact r.calls.ascending.imp (fun hlt => TotalKey.ne_of_lt hlt)
  · unfold Table.keys live
    rw [List.mem_map]
    constructor
    · rintro ⟨⟨k', c⟩, he, rfl⟩
      exact ⟨c, (Table.mem_entries_iff _ _ _).mp he⟩
    · rintro ⟨c, hc⟩
      exact ⟨(k, c), (Table.mem_entries_iff _ _ _).mpr hc, rfl⟩

theorem release_fst (r : Registry) (h : Handle) :
    (r.release h).1 = true ↔ ∃ c, r.live h = some c := by
  unfold live
  cases hlive : r.calls.get? h with
  | none =>
      rw [release_of_none r h hlive]
      simp only [Bool.false_eq_true, reduceCtorEq, exists_false]
  | some c =>
      unfold release
      rw [hlive]
      simp only [Option.some.injEq, exists_eq']

/-- A request is answered as the map of the live calls answers it, and one that leaves the map
    as it is leaves the registry as it is. -/
theorem serve_answers (hr : r.Consistent) (q : Request)
    (hroom : q.registers = true → r.size < Word.top) :
    r.live.Answers q (r.serve q).1 (r.serve q).2.live ∧
      ((r.serve q).2.live = r.live → (r.serve q).2 = r) := by
  cases q with
  | register b =>
      have hadds := insert_adds hr (hroom rfl) b none 0
      exact ⟨hadds, fun hsame => absurd hsame hadds.ne⟩
  | registerChild parent b =>
      have hadds := insert_adds hr (hroom rfl) b (some parent.handle) parent.childDepth
      rw [Context.toNat_childDepth] at hadds
      exact ⟨hadds, fun hsame => absurd hsame hadds.ne⟩
  | lookup h =>
      refine ⟨⟨rfl, fun c => lookup_eq_ok_iff, fun c hc => ?_⟩, fun _ => rfl⟩
      exact hr.handle_eq h c (lookup_eq_ok_iff.mp hc)
  | contains h => exact ⟨⟨rfl, Table.contains_iff r.calls h⟩, fun _ => rfl⟩
  | release h =>
      have hentry : ∀ k, (r.release h).2.live k = if k = h then none else r.live k := by
        intro k
        unfold live
        rw [calls_release, Table.get?_erase]
      refine ⟨⟨release_fst r h, (hentry h).trans (if_pos rfl),
        fun k hk => (hentry k).trans (if_neg hk)⟩, fun hsame => ?_⟩
      -- The map has not changed, so there was nothing to release.
      have hdead : r.live h = none := by
        have hself := hentry h
        rw [if_pos rfl] at hself
        exact (congrFun hsame h).symm.trans hself
      change (r.release h).2 = r
      rw [release_of_none r h hdead]
  | childrenOf h =>
      exact ⟨⟨rfl, pairwise_childrenOf hr h, mem_childrenOf_iff hr h⟩, fun _ => rfl⟩
  | size => exact ⟨⟨rfl, r.calls.keys, keys_live r⟩, fun _ => rfl⟩

/-! ## Requests in a row -/

/-- Requests in a row keep a registry consistent. -/
theorem consistent_after (hr : r.Consistent) (qs : List Request) : (r.after qs).Consistent := by
  induction qs generalizing r with
  | nil => exact hr
  | cons q qs ih => exact ih (consistent_serve hr q)

/-- A registration makes one more live call at most, and no other request makes any. -/
theorem size_serve_le (r : Registry) (q : Request) :
    (r.serve q).2.size ≤ r.size + if q.registers then 1 else 0 := by
  have hinsert : ∀ b parent depth, (r.insert b parent depth).2.size ≤ r.size + 1 := by
    intro b parent depth
    unfold size
    rw [calls_insert]
    exact Table.size_set_le r.calls _ _
  cases q with
  | register b => exact hinsert b none 0
  | registerChild parent b => exact hinsert b (some parent.handle) parent.childDepth
  | release h =>
      change (r.release h).2.size ≤ r.size
      unfold size
      rw [calls_release]
      exact Table.size_erase_le r.calls h
  | lookup h => exact Nat.le_refl _
  | contains h => exact Nat.le_refl _
  | childrenOf h => exact Nat.le_refl _
  | size => exact Nat.le_refl _

/-- There are no more live calls than have been registered. -/
theorem size_after_le (r : Registry) (qs : List Request) :
    (r.after qs).size ≤ r.size + qs.countP Request.registers := by
  induction qs generalizing r with
  | nil => exact Nat.le_refl _
  | cons q qs ih =>
      -- The first request adds one call at most, and only if it registers one.
      have hfirst := r.size_serve_le q
      have hrest := ih (r.serve q).2
      rw [List.countP_cons]
      change ((r.serve q).2.after qs).size ≤ _
      omega

/-- After `n` registrations the counter has not come around: it stands at the next number,
    and the live calls have the numbers below it. -/
structure Ascending (r : Registry) (n : Nat) : Prop where
  next_eq : n < Word.top → r.next.toNat = n + 1
  live_le : ∀ h c, r.live h = some c → h.id.toNat ≤ n

/-- As long as the counter has not come around, the search ends where it begins. -/
theorem Ascending.allocate {n : Nat} (hr : r.Ascending n) (hn : n < Word.top) :
    r.allocate.1 = ⟨r.next⟩ := by
  have hfree : r.calls.contains ⟨r.next⟩ = false := by
    rw [Table.contains_eq_false_iff]
    cases hlive : r.calls.get? ⟨r.next⟩ with
    | none => rfl
    | some c =>
        have hle := hr.live_le _ c hlive
        have hnext := hr.next_eq hn
        dsimp only at hle
        omega
  change (⟨search r.calls r.calls.size r.next⟩ : Handle) = ⟨r.next⟩
  -- The first handle that is tried is free.
  cases r.calls.size with
  | zero => rfl
  | succ tries => rw [search, hfree, if_neg Bool.false_ne_true]

/-- The registration after `n` others hands out the number after `n`. -/
theorem Ascending.insert {n : Nat} (hr : r.Ascending n) (hn : n < Word.top) (b : Binding)
    (parent : Option Handle) (depth : UInt32) :
    (r.insert b parent depth).1.id.toNat = n + 1 ∧
      (r.insert b parent depth).2.Ascending (n + 1) := by
  have hhandle : (r.insert b parent depth).1 = r.allocate.1 := by rw [insert_eq]
  have hnext := hr.next_eq hn
  have hid : r.allocate.1.id.toNat = n + 1 := by rw [hr.allocate hn, hnext]
  rw [hhandle]
  refine ⟨hid, fun hn' => ?_, fun h c hc => ?_⟩
  · -- The counter goes on behind the handle, as long as there is a word behind it.
    have hne : r.allocate.1.id ≠ 0 := by
      intro hzero
      rw [hzero] at hid
      exact absurd hid (by simp only [UInt64.toNat_zero]; omega)
    rw [insert_eq, toNat_successor _ hne, hid, Nat.mod_eq_of_lt hn']
  · -- What is live is the new call or has been live before.
    unfold live at hc
    rw [calls_insert, Table.get?_set] at hc
    by_cases hh : h = r.allocate.1
    · rw [hh, hid]
    · rw [if_neg hh] at hc
      have hle := hr.live_le h c hc
      omega

/-- A release does not set the counter back. -/
theorem ascending_release {n : Nat} (hr : r.Ascending n) (h : Handle) :
    (r.release h).2.Ascending n := by
  refine ⟨fun hn => ?_, fun k c hc => hr.live_le k c (get?_of_release hc)⟩
  rw [release_eq]
  exact hr.next_eq hn

/-- Up to as many registrations as there are words, the handles are numbered through. -/
theorem handedOut_eq {n : Nat} (hr : r.Ascending n) (qs : List Request)
    (hcount : n + qs.countP Request.registers ≤ Word.top) :
    (r.handedOut qs).map (fun h => h.id.toNat) =
      List.range' (n + 1) (qs.countP Request.registers) := by
  induction qs generalizing r n with
  | nil => rfl
  | cons q qs ih =>
      rw [List.countP_cons] at hcount ⊢
      rw [handedOut]
      -- Only a registration takes a number, and nothing else sets the counter back.
      cases q with
      | register b =>
          simp only [Request.registers, if_true] at hcount ⊢
          rcases hr.insert (by omega) b none 0 with ⟨hid, hr'⟩
          have hrest := ih hr' (by omega)
          rw [List.range'_succ, ← hrest, ← hid]
          rfl
      | registerChild parent b =>
          simp only [Request.registers, if_true] at hcount ⊢
          rcases hr.insert (by omega) b (some parent.handle) parent.childDepth with ⟨hid, hr'⟩
          have hrest := ih hr' (by omega)
          rw [List.range'_succ, ← hrest, ← hid]
          rfl
      | release h => exact ih (ascending_release hr h) hcount
      | lookup h => exact ih hr hcount
      | contains h => exact ih hr hcount
      | childrenOf h => exact ih hr hcount
      | size => exact ih hr hcount

/-- Requests in a row, starting from a registry that nothing has been registered in, are
    answered as a finite map from handles to contexts answers them, and a request that leaves
    the map as it is leaves the registry as it is. No handle is handed out twice before there
    have been more registrations than there are words other than zero.

    `hroom` leaves a free handle for every registration; without one it would not end. -/
theorem serves_as_map (qs : List Request)
    (hroom : ∀ before q rest, qs = before ++ q :: rest → q.registers = true →
      (empty.after before).size < Word.top) :
    (∀ before q rest, qs = before ++ q :: rest →
        (empty.after before).live.Answers q ((empty.after before).serve q).1
          ((empty.after before).serve q).2.live ∧
        (((empty.after before).serve q).2.live = (empty.after before).live →
          ((empty.after before).serve q).2 = empty.after before)) ∧
      (qs.countP Request.registers ≤ Word.top → (empty.handedOut qs).Nodup) := by
  refine ⟨fun before q rest hqs => ?_, fun hcount => ?_⟩
  · exact serve_answers (consistent_after consistent_empty before) q (hroom before q rest hqs)
  · -- The numbers behind one another are different, and so are the handles.
    have hempty : empty.Ascending 0 := ⟨fun _ => rfl, fun h c hc => by cases hc⟩
    have hnumbers := handedOut_eq hempty qs (by omega)
    refine List.Nodup.of_map (fun h => h.id.toNat) ?_
    rw [hnumbers]
    exact List.nodup_range'

/-- A call is registered below another one, and a second one below the same context after the
    first one's parent has been released. -/
def Request.orphans : List Request :=
  [.register .small, .registerChild ⟨⟨1⟩, none, 0, .small, 0⟩ .small, .release ⟨1⟩,
    .registerChild ⟨⟨1⟩, none, 0, .small, 0⟩ .small, .childrenOf ⟨1⟩, .release ⟨1⟩]

/-- Both children of the released call are listed, and its second release changes nothing. -/
theorem serves_as_map_of_orphans :
    (∀ before q rest, Request.orphans = before ++ q :: rest →
        (empty.after before).live.Answers q ((empty.after before).serve q).1
          ((empty.after before).serve q).2.live ∧
        (((empty.after before).serve q).2.live = (empty.after before).live →
          ((empty.after before).serve q).2 = empty.after before)) ∧
      (empty.handedOut Request.orphans).Nodup := by
  have hroom : ∀ before q rest, Request.orphans = before ++ q :: rest → q.registers = true →
      (empty.after before).size < Word.top := by
    intro before q rest hqs _
    have hlength := congrArg List.length hqs
    rw [List.length_append, List.length_cons] at hlength
    -- Six requests do not come near to the number of words.
    have hsize := empty.size_after_le before
    have hcount := List.countP_le_length (p := Request.registers) (l := before)
    have hempty : empty.size = 0 := rfl
    have hall : Request.orphans.length = 6 := rfl
    unfold Word.top UInt64.size
    omega
  rcases serves_as_map Request.orphans hroom with ⟨hanswers, hnodup⟩
  exact ⟨hanswers, hnodup (by decide)⟩

end Registry

end ContractHost
