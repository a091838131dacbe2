import ContractHost.Proofs.Host.Priced
import ContractHost.Proofs.Host.Share
import ContractHost.Proofs.Small

/-!
# Calls that do not Interfere

Two calls may keep their records in one memory, each behind a prefix of its own, and ask for
storage in turns. If neither prefix is a prefix of the other and the calls do not share a
meter, neither call can tell that the other is there. Every request is answered as if the
requests of the other call had not been made, for the same gas, and all orders in which the
two rows of requests may be taken lead to the same world.

A request only sees and changes the share of its call, which has been taken apart in
`Share.Local`. A row of requests of one call is therefore local to the share of the call, and
the rest is an induction on how the two rows have been put together.

## Main definitions

* `Context.share`: The share of a call.
* `Interleaves`: Two rows put together to one.

## Theorems

* `Host.serve_local`, `Host.serveAll_local`: Requests of a call are local to its share.
* `Registry.Consistent.disjoint`: The shares of two calls.
* `Host.interleaved`: Rows of requests that are local to disjoint shares.
* `Host.calls_do_not_interfere`: Two calls with a memory in common.
-/

namespace ContractHost

/-- The share of a call whose store shows the records of a memory under a prefix. -/
def Context.share (ctx : Context) (id : MemoryId) (pre : Bytes) : Share :=
  ⟨id, pre, ctx.binding.meter, ctx.serial⟩

/-- The third row has been put together from the first two, each in its own order. -/
inductive Interleaves {α : Type} : List α → List α → List α → Prop
  | nil : Interleaves [] [] []
  | left {a : α} {as bs cs : List α} :
      Interleaves as bs cs → Interleaves (a :: as) bs (a :: cs)
  | right {b : α} {as bs cs : List α} :
      Interleaves as bs cs → Interleaves as (b :: bs) (b :: cs)

/-! ## Requests of one call -/

section

variable {registry : Registry} {ctx : Context} {id : MemoryId} {pre : Bytes}

namespace World

variable {α β : Type}

theorem charge_local (registry : Registry) (ctx : Context) (id : MemoryId) (pre : Bytes)
    (amount : UInt64) : (ctx.share id pre).Local registry (charge ctx amount) :=
  ⟨fun v => (.ok (v.meter.charge amount).1, [.meter (v.meter.charged amount)]), fun _ _ => rfl⟩

/-- An operation between two charges is local if the operation is. -/
theorem priced_local {before : UInt64} {operation : Attempt α} {behind : α → Option UInt64}
    (hop : (ctx.share id pre).Local registry operation) :
    (ctx.share id pre).Local registry (priced ctx before operation behind) := by
  refine .bind (charge_local registry ctx id pre before) (fun _ => .bind hop (fun a => ?_))
  cases behind a with
  | none => exact .pure _ _ _
  | some price => exact .bind (charge_local registry ctx id pre price) (fun _ => .pure _ _ _)

/-- A step on a cursor depends on the records that the store shows. -/
theorem stepCursor_local (hshows : ctx.binding.store.Shows id pre) (number : UInt64)
    (found : Option Cursor) : (ctx.share id pre).Local registry (stepCursor ctx number found) := by
  cases found with
  | none => exact .throw _ _ _
  | some c =>
      refine .bind ⟨fun v => (.ok ((c.stepOn v.records).mapError .ofStore), []), fun w _ => ?_⟩
        (fun stepped => .bind ?_ (fun _ => .pure _ _ _))
      · rw [onStore_apply_of_eq (Cursor.step_eq_stepOn hshows c _)]
        rfl
      · exact ⟨fun v => (.ok (.ok ⟨⟩), [.frame (v.frame.replace number stepped.2)]), fun _ _ => rfl⟩

/-- A step looks its cursor up in the frame of the share, and goes on from there. -/
theorem moveCursor_local (hshows : ctx.binding.store.Shows id pre) (number : UInt64) :
    (ctx.share id pre).Local registry (moveCursor ctx number) :=
  .reading (g := fun v => stepCursor ctx number (v.frame.cursor? number))
    (fun v => stepCursor_local hshows number (v.frame.cursor? number))

theorem withContext_local {h : Handle} {serve : Context → Attempt α}
    (hlive : registry.lookup h = .ok ctx)
    (hserve : (ctx.share id pre).Local registry (serve ctx)) :
    (ctx.share id pre).Local registry (withContext h serve) := by
  rcases hserve with ⟨f, hf⟩
  -- The gas that is reported is the difference of two readings of the meter of the share.
  refine ⟨fun v =>
    let served := f v
    let after := served.2.foldl Share.View.change v
    (served.1.map fun r => (r, .ofExternal (Word.sub after.meter.consumed v.meter.consumed)),
      served.2), fun w hw => ?_⟩
  have hlive' : w.registry.lookup h = .ok ctx := hw ▸ hlive
  rw [withContext_live _ hlive', hf w hw]
  dsimp only
  rw [← Share.seen_changes]
  rcases (f ((ctx.share id pre).seen w)).1 with p | r
  · rfl
  · rfl

end World

namespace Host

variable (host : Host)

/-- A storage request sees and changes the share of its call only. -/
theorem serve_local (hshows : ctx.binding.store.Shows id pre) {q : StorageRequest}
    (hlive : registry.lookup q.call = .ok ctx) :
    (ctx.share id pre).Local registry (host.serve q) := by
  have hcharge := World.charge_local registry ctx id pre
  -- Each request is a charge and a use of the store or of the frame, and both are seen and changed
  -- in the share. The store is read as the records under the prefix.
  cases q with
  | get call key =>
      change (ctx.share id pre).Local registry (World.answering _ (host.get call key))
      rw [get_eq, World.answering_withContext]
      refine World.withContext_local hlive (.map _ (World.priced_local ?_))
      refine ⟨fun v => (.ok (.ok (v.records.get? key)), []), fun w _ => ?_⟩
      rw [World.onStore_apply, hshows.get]
      rfl
  | set call key value =>
      change (ctx.share id pre).Local registry (World.answering _ (host.set call key value))
      rw [set, World.answering_withContext]
      refine World.withContext_local hlive (.map _ (.bind (hcharge _) (fun _ => ?_)))
      refine ⟨fun _ => (.ok (.ok ()), [.record key (some value)]), fun w _ => ?_⟩
      rw [World.onStore_apply, hshows.set]
      rfl
  | delete call key =>
      change (ctx.share id pre).Local registry (World.answering _ (host.delete call key))
      rw [delete, World.answering_withContext]
      refine World.withContext_local hlive (.map _ (.bind (hcharge _) (fun _ => ?_)))
      refine ⟨fun _ => (.ok (.ok ()), [.record key none]), fun w _ => ?_⟩
      rw [World.onStore_apply, hshows.delete]
      rfl
  | scan call r order =>
      change (ctx.share id pre).Local registry (World.answering _ (host.scan call r order))
      rw [scan, World.answering_withContext]
      refine World.withContext_local hlive (.map _ (.bind ?_ (fun _ => .bind (hcharge _) ?_)))
      · exact ⟨fun _ => (.ok (r.check.mapError .ofStore), []), fun _ _ => rfl⟩
      · intro _
        exact ⟨fun v => (.ok (.ok ⟨call, (v.frame.push r order).2⟩),
          [.frame (v.frame.push r order).1]), fun _ _ => rfl⟩
  | next cursor =>
      change (ctx.share id pre).Local registry (World.answering _ (host.next cursor))
      rw [next, World.answering_withContext]
      refine World.withContext_local hlive (.map _ ?_)
      rw [move_eq]
      exact World.priced_local (World.moveCursor_local hshows cursor.number)

/-- So does a row of requests of one call. -/
theorem serveAll_local (hshows : ctx.binding.store.Shows id pre) {call : Handle}
    (hlive : registry.lookup call = .ok ctx) {qs : List StorageRequest}
    (hqs : ∀ q ∈ qs, q.call = call) : (ctx.share id pre).Local registry (host.serveAll qs) := by
  induction qs with
  | nil => exact .answer _ _ _
  | cons q qs ih =>
      have hq := serve_local host hshows (q := q) ((hqs q List.mem_cons_self).symm ▸ hlive)
      have hrest := ih (fun q hq => hqs q (List.mem_cons_of_mem _ hq))
      exact hq.andThen (fun a => hrest.andThen (fun rest => .answer _ _ ((q, a) :: rest)))

end Host

end

/-! ## Two calls -/

/-- Two calls on different meters have shares without anything in common, if their prefixes
    have nothing in common. -/
theorem Registry.Consistent.disjoint {registry : Registry} (hregistry : registry.Consistent)
    {callA callB : Handle} {ctxA ctxB : Context} (hliveA : registry.lookup callA = .ok ctxA)
    (hliveB : registry.lookup callB = .ok ctxB) (hmeter : ctxA.binding.meter ≠ ctxB.binding.meter)
    {preA preB : Bytes} (hpre : ¬ preA <+: preB ∧ ¬ preB <+: preA) (id : MemoryId) :
    (ctxA.share id preA).Disjoint (ctxB.share id preB) where
  pre _ := hpre
  meter := hmeter
  serial hserial := by
    have hsame := hregistry.serial_inj _ _ _ _ (Registry.lookup_eq_ok_iff.mp hliveA)
      (Registry.lookup_eq_ok_iff.mp hliveB) hserial
    rw [hsame, hliveB] at hliveA
    exact hmeter (by rw [Except.ok.inj hliveA])

namespace Host

theorem serveAll_append (host : Host) (qs qs' : List StorageRequest) (w : World) :
    (host.serveAll (qs ++ qs') w).2 = (host.serveAll qs' (host.serveAll qs w).2).2 := by
  induction qs generalizing w with
  | nil => rfl
  | cons q qs ih => exact ih (host.serve q w).2

/-- Two rows of requests, each local to a share that has nothing in common with the other.
    However they are put together, the requests of either row are answered as they are without
    the other, and the world comes to what it comes to if one row goes first. -/
theorem interleaved (host : Host) {registry : Registry} {s t : Share} (hst : s.Disjoint t)
    {callA callB : Handle} (hcall : callA ≠ callB)
    (hA : ∀ as : List StorageRequest, (∀ q ∈ as, q.call = callA) →
      s.Local registry (host.serveAll as))
    (hB : ∀ bs : List StorageRequest, (∀ q ∈ bs, q.call = callB) →
      t.Local registry (host.serveAll bs))
    {as bs qs : List StorageRequest} (hqs : Interleaves as bs qs)
    (has : ∀ q ∈ as, q.call = callA) (hbs : ∀ q ∈ bs, q.call = callB) {w : World}
    (hw : w.registry = registry) :
    ((host.serveAll qs w).1.filter fun e => e.1.call = callA) = (host.serveAll as w).1 ∧
      ((host.serveAll qs w).1.filter fun e => e.1.call = callB) = (host.serveAll bs w).1 ∧
      (host.serveAll qs w).2 = (host.serveAll (as ++ bs) w).2 := by
  -- The induction is on how the rows have been put together. The first request is local to one
  -- share, so the other row does not see it, and the rest is the induction hypothesis in the world
  -- that follows it.
  induction hqs generalizing w with
  | nil => exact ⟨rfl, rfl, rfl⟩
  | @left q as bs qs _ ih =>
      have hq : q.call = callA := has q List.mem_cons_self
      have has' : ∀ q ∈ as, q.call = callA := fun q hq => has q (List.mem_cons_of_mem _ hq)
      -- One request is a row of one.
      have hone := hA [q] (fun q' hq' => by rw [List.mem_singleton.mp hq', hq])
      rcases ih has' hbs (hone.registry_eq hw) with ⟨ihA, ihB, ihw⟩
      refine ⟨?_, ?_, ihw⟩
      · rw [serveAll, serveAll]
        dsimp only
        rw [List.filter_cons_of_pos (by simp [hq])]
        exact congrArg _ ihA
      · rw [serveAll]
        dsimp only
        rw [List.filter_cons_of_neg (by simp [hq, hcall])]
        exact ihB.trans ((hB bs hbs).outcome_eq hst.symm hone hw)
  | @right q as bs qs _ ih =>
      have hq : q.call = callB := hbs q List.mem_cons_self
      have hbs' : ∀ q ∈ bs, q.call = callB := fun q hq => hbs q (List.mem_cons_of_mem _ hq)
      have hone := hB [q] (fun q' hq' => by rw [List.mem_singleton.mp hq', hq])
      rcases ih has hbs' (hone.registry_eq hw) with ⟨ihA, ihB, ihw⟩
      refine ⟨?_, ?_, ?_⟩
      · rw [serveAll]
        dsimp only
        rw [List.filter_cons_of_neg (by simp [hq, hcall.symm])]
        exact ihA.trans ((hA as has).outcome_eq hst hone hw)
      · rw [serveAll, serveAll]
        dsimp only
        rw [List.filter_cons_of_pos (by simp [hq])]
        exact congrArg _ ihB
      · -- The request is carried past the whole of the other row.
        have hpast := (hA as has).comm hst hone hw
        change (host.serveAll qs (host.serveAll [q] w).2).2 = _
        refine ihw.trans ?_
        rw [serveAll_append, serveAll_append, serveAll]
        exact congrArg (fun w => (host.serveAll bs w).2) hpast

/-- Two live calls on stacks of scopes of one memory, whose prefixes have nothing in common,
    and on different meters. In whatever order their requests are taken, the requests of each
    call are answered as if they had been the only ones, with the same gas, and all orders
    lead to the same world. -/
theorem calls_do_not_interfere {host : Host} {w : World} {callA callB : Handle}
    {ctxA ctxB : Context} {prefixesA prefixesB : List Bytes} {id : MemoryId}
    (hreached : w.registry.Reached) (hliveA : w.registry.lookup callA = .ok ctxA)
    (hliveB : w.registry.lookup callB = .ok ctxB)
    (hmeter : ctxA.binding.meter ≠ ctxB.binding.meter)
    (hstoreA : ctxA.binding.store = .stack prefixesA (.memory id))
    (hstoreB : ctxB.binding.store = .stack prefixesB (.memory id))
    (hpre : ¬ prefixesA.flatten <+: prefixesB.flatten ∧ ¬ prefixesB.flatten <+: prefixesA.flatten)
    {as bs qs : List StorageRequest} (has : ∀ q ∈ as, q.call = callA)
    (hbs : ∀ q ∈ bs, q.call = callB) (hqs : Interleaves as bs qs) :
    ((host.serveAll qs w).1.filter fun e => e.1.call = callA) = (host.serveAll as w).1 ∧
      ((host.serveAll qs w).1.filter fun e => e.1.call = callB) = (host.serveAll bs w).1 ∧
      (host.serveAll qs w).2 = (host.serveAll (as ++ bs) w).2 := by
  have hshowsA : ctxA.binding.store.Shows id prefixesA.flatten :=
    hstoreA ▸ Store.shows_stack prefixesA id
  have hshowsB : ctxB.binding.store.Shows id prefixesB.flatten :=
    hstoreB ▸ Store.shows_stack prefixesB id
  -- One call would have one meter.
  have hcall : callA ≠ callB := by
    intro heq
    rw [heq, hliveB] at hliveA
    exact hmeter (by rw [Except.ok.inj hliveA])
  exact interleaved host (hreached.consistent.disjoint hliveA hliveB hmeter hpre id) hcall
    (fun _ has => serveAll_local host hshowsA hliveA has)
    (fun _ hbs => serveAll_local host hshowsB hliveB hbs) hqs has hbs rfl

end Host

/-- A walk through the records of one contract, while a record of another one is written under
    the same key. -/
theorem Host.calls_do_not_interfere_of_walk :
    ((Host.small.serveAll
        [.set ⟨1⟩ [107] [118], .set ⟨2⟩ [107] [119], .scan ⟨1⟩ ⟨none, none⟩ .ascending,
          .next ⟨⟨1⟩, 1⟩, .get ⟨2⟩ [107]] World.pair).1.filter fun e => e.1.call = ⟨1⟩) =
        (Host.small.serveAll [.set ⟨1⟩ [107] [118], .scan ⟨1⟩ ⟨none, none⟩ .ascending,
          .next ⟨⟨1⟩, 1⟩] World.pair).1 ∧
      ((Host.small.serveAll
        [.set ⟨1⟩ [107] [118], .set ⟨2⟩ [107] [119], .scan ⟨1⟩ ⟨none, none⟩ .ascending,
          .next ⟨⟨1⟩, 1⟩, .get ⟨2⟩ [107]] World.pair).1.filter fun e => e.1.call = ⟨2⟩) =
        (Host.small.serveAll [.set ⟨2⟩ [107] [119], .get ⟨2⟩ [107]] World.pair).1 ∧
      (Host.small.serveAll
        [.set ⟨1⟩ [107] [118], .set ⟨2⟩ [107] [119], .scan ⟨1⟩ ⟨none, none⟩ .ascending,
          .next ⟨⟨1⟩, 1⟩, .get ⟨2⟩ [107]] World.pair).2 =
        (Host.small.serveAll
          ([.set ⟨1⟩ [107] [118], .scan ⟨1⟩ ⟨none, none⟩ .ascending, .next ⟨⟨1⟩, 1⟩] ++
            [.set ⟨2⟩ [107] [119], .get ⟨2⟩ [107]]) World.pair).2 := by
  have hstoreA : Binding.small.store = .stack [Store.contractPrefix "a"] (.memory 0) := rfl
  have hstoreB : Binding.other.store = .stack [Store.contractPrefix "b"] (.memory 0) := rfl
  exact Host.calls_do_not_interfere World.reached_pair World.lookup_pair_small
    World.lookup_pair_other (by decide) hstoreA hstoreB (by decide) (by simp [StorageRequest.call])
    (by simp [StorageRequest.call])
    (.left (.right (.left (.left (.right .nil)))))

end ContractHost
