import ContractHost.Proofs.Effect
import ContractHost.Proofs.Registry.Consistency

/-!
# Releases Undo Registrations

A host that runs something for a call registers the call, lets the engine work, and
releases the call. What the engine did in between may have registered and released any
number of further calls. If it has left the live calls and the counts as it found them,
the release gives back the registry from before the registration, and only the counter
has moved.

`Settled` is that relation between two registries. It is not equality: a handle that has
been given out and taken back is not given out next, so the counter moves, and so does the
number of calls registered so far.

The handle of the registered call has to be free, or the registration would overwrite a
live call that no release could bring back. That is where the room comes in: there have to
be fewer live calls than words.

## Main definitions

* `Registry.Settled`: The same live calls and the same counts.

## Theorems

* `Registry.steady_settled`: Any number of steps in a row may settle.
* `Registry.allocate_free`: With room, the handle of a new call is free.
* `Registry.release_insert`: A release undoes a registration.
* `Registry.Settled.eq_with`: Settled registries differ in nothing but counters.
-/

namespace ContractHost

namespace Registry

/-- The same live calls and the same counts. -/
structure Settled (r r' : Registry) : Prop where
  calls : r'.calls = r.calls
  children : r'.children = r.children
  issued_le : r.issued ≤ r'.issued

/-- Registries may settle any number of times in a row. -/
theorem steady_settled : Steady Settled where
  refl _ := ⟨rfl, rfl, Nat.le_refl _⟩
  trans h h' :=
    ⟨h'.calls.trans h.calls, h'.children.trans h.children, Nat.le_trans h.issued_le h'.issued_le⟩

/-- Settled registries have the same number of live calls. -/
theorem Settled.size {r r' : Registry} (h : Settled r r') : r'.size = r.size := by
  unfold Registry.size
  rw [h.calls]

/-- Settled registries differ in nothing but counters. -/
theorem Settled.eq_with {r r' : Registry} (h : Settled r r') :
    r' = { r with next := r'.next, issued := r'.issued } := by
  rw [← h.calls, ← h.children]

/-- With fewer live calls than words, the handle of a new call is free. -/
theorem allocate_free (r : Registry) (hr : r.Consistent) (hroom : r.size < Word.top) :
    r.calls.get? r.allocate.1 = none :=
  search_free r.calls r.next hr.next_ne_zero hroom

/-- With room, a registration makes one more live call. -/
theorem size_insert (r : Registry) (hr : r.Consistent) (hroom : r.size < Word.top)
    (b : Binding) (parent : Option Handle) (depth : UInt32) :
    (r.insert b parent depth).2.size = r.size + 1 := by
  unfold size
  rw [calls_insert, Table.size_set_of_none _ _ (allocate_free r hr hroom)]

/-- A registration that counted a child is undone by a release that forgets it: a count of
    one is removed again, a larger one falls back to what it was. -/
theorem get?_children_release_insert (r : Registry) (hr : r.Consistent)
    (hroom : r.size < Word.top) (b : Binding) (parent : Option Handle) (depth : UInt32)
    (k : Handle) :
    ((r.insert b parent depth).2.release r.allocate.1).2.children.get? k =
      r.children.get? k := by
  have hfree := allocate_free r hr hroom
  have hlive : (r.insert b parent depth).2.calls.get? r.allocate.1 =
      some (r.contextFor b parent depth) := by
    rw [calls_insert, Table.get?_set_self]
  rw [get?_children_release _ _ k _ hlive]
  by_cases hk : k = r.allocate.1
  · -- A call that was not live had no count.
    rw [if_pos hk, hk]
    cases hcount : r.children.get? r.allocate.1 with
    | none => rfl
    | some n =>
        rcases hr.counted_live _ n hcount with ⟨c, hc⟩
        rw [hfree] at hc
        exact absurd hc (by simp only [reduceCtorEq, not_false_eq_true])
  · have hsame : (r.contextFor b parent depth).parent = parent := rfl
    rw [if_neg hk, get?_children_insert, hsame]
    by_cases hparent : parent = some k
    · rw [if_pos hparent]
      by_cases hcounted : (r.insert b parent depth).2.calls.contains k = true
      · -- The parent has been counted, so the release takes off again what was put on.
        rw [if_pos ⟨hparent, hcounted⟩, Option.bind_some]
        unfold childCount Table.getD
        cases hcount : r.children.get? k with
        | none => rfl
        | some n =>
            have hpos := hr.counted_pos k n hcount
            rw [Option.getD_some, if_neg (by omega), Nat.add_sub_cancel]
      · -- A parent that is not live has no count to forget.
        rw [if_neg (fun h => hcounted h.2)]
        cases hcount : r.children.get? k with
        | none => rfl
        | some n =>
            rcases hr.counted_live k n hcount with ⟨c, hc⟩
            have hstill : (r.insert b parent depth).2.calls.get? k = some c := by
              rw [calls_insert, Table.get?_set_of_ne _ _ hk, hc]
            exact absurd ((Table.contains_iff _ _).mpr ⟨c, hstill⟩) hcounted
    · rw [if_neg hparent, if_neg (fun h => hparent h.1)]

/-- A release of the same call keeps two registries settled. -/
theorem release_congr {r r' : Registry} (h : Settled r r') (k : Handle) :
    Settled (r.release k).2 (r'.release k).2 := by
  -- A release looks at neither counter, so it does the same to both registries.
  have hrelease : r'.release k =
      ((r.release k).1, { (r.release k).2 with next := r'.next, issued := r'.issued }) := by
    rw [h.eq_with]
    unfold Registry.release forgetChild
    cases r.calls.get? k with
    | none => rfl
    | some c =>
        dsimp only
        cases c.parent with
        | none => rfl
        | some p =>
            dsimp only
            cases r.children.get? p with
            | none => rfl
            | some n => rfl
  refine ⟨by rw [hrelease], by rw [hrelease], ?_⟩
  rw [hrelease, release_eq]
  exact h.issued_le

/-- Whatever has happened since a registration, if it has settled, the release of the call
    gives back the live calls and the counts from before the registration. -/
theorem release_insert {r r' : Registry} (hr : r.Consistent) (hroom : r.size < Word.top)
    (b : Binding) (parent : Option Handle) (depth : UInt32)
    (h : Settled (r.insert b parent depth).2 r') :
    Settled r (r'.release (r.insert b parent depth).1).2 := by
  have hhandle : (r.insert b parent depth).1 = r.allocate.1 := by rw [insert_eq]
  rw [hhandle]
  -- It is enough to release the call right behind its registration.
  refine steady_settled.trans ?_ (release_congr h r.allocate.1)
  refine ⟨?_, ?_, ?_⟩
  · -- The handle was free, so its removal leaves nothing of the registration behind.
    rw [calls_release, calls_insert, Table.erase_set_of_none _ _ (allocate_free r hr hroom)]
  · exact Table.ext_get? (fun k => get?_children_release_insert r hr hroom b parent depth k)
  · rw [release_eq, insert_eq]
    exact Nat.le_succ _

end Registry

end ContractHost
