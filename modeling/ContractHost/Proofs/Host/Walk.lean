import ContractHost.Proofs.Host.Cursors
import ContractHost.Proofs.Registry.Consistency
import ContractHost.Proofs.Small

/-!
# Walks through the Store of a Call

A running contract opens a cursor and moves it, and between two steps it may write to its
store, and so may others, and move other cursors. This file follows one cursor through any
sequence of storage requests of any calls.

As long as its meter holds out, the cursor is answered as the walk that it is: each step
with the record that comes next in the store as it is then, and with none forever after the
first none. Once the meter is over its limit no step succeeds any more. It does not matter
that the last step, which could not be paid for, may have passed a record over.

The invariant is `World.Tracks`. It is kept by the cursor's own steps, which is what the
records say, and by every other request, because cursors of other calls have frames of their
own. For that the serial numbers of the live calls have to differ, as they do in every
registry that arises.

## Main definitions

* `StorageRequest`, `StorageAnswer`: What a contract may ask about storage.
* `Host.serve`, `Host.serveAll`: Requests in a row, with their answers.
* `CursorId.returned`: What the steps of a cursor have handed back.
* `World.Tracks`: What holds of a cursor at every moment.

## Theorems

* `Host.serve_tracks`: Other requests keep the invariant.
* `Host.next_tracks`: A step of the cursor is answered as it should be.
* `Host.serveAll_tracks`: Requests in a row.
* `Host.cursor_walks`: A cursor that has been opened is a walk.
-/

namespace ContractHost

/-- What a running contract may ask its host about storage. -/
inductive StorageRequest
  | get (call : Handle) (key : Bytes)
  | set (call : Handle) (key value : Bytes)
  | delete (call : Handle) (key : Bytes)
  | scan (call : Handle) (r : Range) (order : Order)
  | next (cursor : CursorId)

/-- The call that asks. -/
def StorageRequest.call : StorageRequest → Handle
  | .get call _ => call
  | .set call _ _ => call
  | .delete call _ => call
  | .scan call _ _ => call
  | .next cursor => cursor.call

/-- What it is handed back. -/
inductive StorageAnswer
  | value (found : Option Bytes)
  | done
  | cursor (opened : CursorId)
  | record (found : Option Record)

/-- A request and how it was answered. -/
abbrev Exchange := StorageRequest × Except Panic (Metered StorageAnswer)

namespace Host

/-- Serves a request. -/
def serve (host : Host) : StorageRequest → World.Action (Metered StorageAnswer)
  | .get call key => do
    let (r, gas) ← host.get call key
    return (r.map .value, gas)
  | .set call key value => do
    let (r, gas) ← host.set call key value
    return (r.map fun _ => .done, gas)
  | .delete call key => do
    let (r, gas) ← host.delete call key
    return (r.map fun _ => .done, gas)
  | .scan call r order => do
    let (r, gas) ← host.scan call r order
    return (r.map .cursor, gas)
  | .next cursor => do
    let (r, gas) ← host.next cursor
    return (r.map .record, gas)

/-- Requests in a row. A panic is the answer to the request it ends. -/
def serveAll (host : Host) : List StorageRequest → World → List Exchange × World
  | [], w => ([], w)
  | q :: qs, w =>
    let r := host.serve q w
    let rest := host.serveAll qs r.2
    ((q, r.1) :: rest.1, rest.2)

end Host

namespace CursorId

/-- What a step of the cursor has handed back. -/
def handedBack (cursor : CursorId) : Exchange → Option (Option Record)
  | (.next stepped, .ok (.ok (.record found), _)) => if stepped = cursor then some found else none
  | _ => none

/-- What the steps of the cursor have handed back, one after another. -/
def returned (cursor : CursorId) (exchanges : List Exchange) : List (Option Record) :=
  exchanges.filterMap cursor.handedBack

/-- Nothing but a step of the cursor hands back anything of it. -/
theorem handedBack_of_ne {cursor : CursorId} {q : StorageRequest} (h : q ≠ .next cursor)
    (outcome : Except Panic (Metered StorageAnswer)) :
    cursor.handedBack (q, outcome) = none := by
  unfold handedBack
  split
  · next stepped _ _ heq =>
    rw [if_neg]
    intro hsame
    cases heq
    exact h (by rw [hsame])
  · rfl

theorem returned_cons (cursor : CursorId) (e : Exchange) (exchanges : List Exchange) :
    cursor.returned (e :: exchanges) = cursor.returned [e] ++ cursor.returned exchanges := by
  unfold returned
  rw [← List.filterMap_append, List.singleton_append]

end CursorId

namespace World

/-- The records of a memory under a prefix. -/
def view (w : World) (id : MemoryId) (pre : Bytes) : Records := (w.chain.memory id).under pre

/-- What holds of a cursor at every moment of a walk: the registry has not changed, and the
    cursor recalls what it has handed back, unless its meter is over the limit. -/
structure Tracks (registry : Registry) (ctx : Context) (number : UInt64) (r : Range)
    (order : Order) (prior : List (Option Record)) (w : World) : Prop where
  registry_eq : w.registry = registry
  recalls : (w.meterOf ctx).isOver = true ∨
    ∃ c, w.cursorAt ctx.serial number = some c ∧ c.Recalls r order prior

/-- The invariant is kept by everything that leaves the cursor alone. -/
theorem Apart.tracks {registry : Registry} {ctx : Context} {number : UInt64} {r : Range}
    {order : Order} {prior : List (Option Record)} {w w' : World}
    (h : Apart ctx.serial number w w') (ht : w.Tracks registry ctx number r order prior) :
    w'.Tracks registry ctx number r order prior where
  registry_eq := h.registry.trans ht.registry_eq
  recalls := by
    rcases ht.recalls with hover | ⟨c, hc, hrecalls⟩
    · exact Or.inl (h.meters ctx.binding.meter hover)
    · exact Or.inr ⟨c, h.cursor c hc, hrecalls⟩

/-- A charge is found on the meter of the context. -/
theorem meterOf_afterCharge (w : World) (ctx : Context) (amount : UInt64) :
    (w.afterCharge ctx amount).meterOf ctx = (w.meterOf ctx).charged amount := by
  unfold meterOf afterCharge
  rw [Chain.meter_setMeter, if_pos rfl]
  rfl

end World

namespace Host

variable (host : Host) {registry : Registry} {call : Handle} {ctx : Context} {number : UInt64}
  {r : Range} {order : Order} {prior : List (Option Record)} {w : World}

/-- Every request but its own steps leaves a cursor alone. -/
theorem serve_apart (hregistry : w.registry.Consistent) (hlive : w.registry.lookup call = .ok ctx)
    (q : StorageRequest) (hq : q ≠ .next ⟨call, number⟩) :
    World.Apart ctx.serial number w (host.serve q w).2 := by
  have hsteady := (World.follows_apart ctx.serial number).steady
  cases q with
  | get call' key =>
      exact Action.Within.bind hsteady (host.get_apart _ _ call' key) (fun _ => .pure hsteady _) w
  | set call' key value =>
      exact Action.Within.bind hsteady (host.set_apart _ _ call' key value)
        (fun _ => .pure hsteady _) w
  | delete call' key =>
      exact Action.Within.bind hsteady (host.delete_apart _ _ call' key)
        (fun _ => .pure hsteady _) w
  | scan call' r' order' =>
      exact Action.Within.bind hsteady (host.scan_apart _ _ call' r' order')
        (fun _ => .pure hsteady _) w
  | next cursor =>
      -- A step of another cursor, or one of the same number in the frame of another call.
      have hmoved : World.Apart ctx.serial number w (host.next cursor w).2 := by
        refine World.withContext_moves hsteady (fun ctx' hlive' => ?_)
        refine move_apart host (fun hserial => ?_) w
        -- Two live calls with one serial number are one call.
        have hsame := hregistry.serial_inj _ _ _ _ (Registry.lookup_eq_ok_iff.mp hlive')
          (Registry.lookup_eq_ok_iff.mp hlive) hserial
        intro hnumber
        refine hq ?_
        rw [← hsame, ← hnumber]
      change World.Apart ctx.serial number w ((host.next cursor >>= _ : World.Action _) w).2
      rw [Action.bind_apply]
      rcases hnext : host.next cursor w with ⟨p | a, w'⟩
      · rw [hnext] at hmoved
        exact hmoved
      · rw [hnext] at hmoved
        exact hmoved

theorem serve_tracks (hregistry : registry.Consistent) (hlive : registry.lookup call = .ok ctx)
    (ht : w.Tracks registry ctx number r order prior) (q : StorageRequest)
    (hq : q ≠ .next ⟨call, number⟩) :
    (host.serve q w).2.Tracks registry ctx number r order prior := by
  rw [← ht.registry_eq] at hregistry hlive
  exact (serve_apart host hregistry hlive q hq).tracks ht

omit host in
/-- A charge that is refused leaves the meter over its limit. -/
theorem charge_refused {amount : UInt64} {e : HostError}
    (h : ((w.meterOf ctx).charge amount).1 = .error e) :
    (∃ limit requested, e = .outOfGas limit requested) ∧
      ((w.afterCharge ctx amount).meterOf ctx).isOver = true := by
  rw [World.meterOf_afterCharge]
  rw [Meter.charge_eq] at h
  -- A charge is refused exactly when it leaves the meter over the limit.
  by_cases hover : ((w.meterOf ctx).charged amount).isOver = true
  · rw [if_pos hover] at h
    exact ⟨⟨_, _, (Except.error.inj h).symm⟩, hover⟩
  · rw [if_neg hover] at h
    cases h

/-- A step is answered as it should be unless the meter refuses it, and the cursor recalls
    the answer. -/
theorem move_tracks {id : MemoryId} {pre : Bytes} (hr : r.check = .ok ())
    (hshows : ctx.binding.store.Shows id pre) (ht : w.Tracks registry ctx number r order prior) :
    (∃ e w', host.move ctx number w = (.ok (.error e), w') ∧
        (∃ limit requested, e = .outOfGas limit requested) ∧ (w'.meterOf ctx).isOver = true ∧
        w'.Tracks registry ctx number r order prior) ∨
      ∃ found w', host.move ctx number w = (.ok (.ok found), w') ∧
        (w.view id pre).Continues r order prior found ∧
        w'.Tracks registry ctx number r order (prior ++ [found]) := by
  rcases ht.recalls with hover | ⟨c, hc, hrecalls⟩
  · -- The meter stays over its limit, so the first charge is refused.
    have hrefused : ((w.meterOf ctx).charge host.prices.iterNext).1 =
        .error (.outOfGas (w.meterOf ctx).bound host.prices.iterNext) := by
      rw [Meter.charge_eq, if_pos (Meter.isOver_charged hover _)]
    rcases charge_refused hrefused with ⟨hgas, hover'⟩
    refine Or.inl
      ⟨_, w.afterCharge ctx host.prices.iterNext, ?_, hgas, hover', ht.registry_eq, Or.inl hover'⟩
    unfold move
    rw [Attempt.bind_apply, World.charge_apply, hrefused]
  · rw [move_apply hshows hc]
    dsimp only
    cases hfirst : ((w.meterOf ctx).charge host.prices.iterNext).1 with
    | error e =>
        rcases charge_refused hfirst with ⟨hgas, hover⟩
        exact Or.inl ⟨e, _, rfl, hgas, hover, ht.registry_eq, Or.inl hover⟩
    | ok paid =>
        -- The first charge is paid, and the cursor steps over the records as they are now.
        rcases hrecalls.step hr (w.view id pre) with ⟨found, c', hstep, hcontinues, hrecalls'⟩
        unfold World.view at hstep
        dsimp only
        rw [hstep]
        cases found with
        | none =>
            refine Or.inr ⟨none, _, rfl, hcontinues, ht.registry_eq, Or.inr ⟨c', ?_, hrecalls'⟩⟩
            exact World.cursorAt_replace hc c' _
        | some e =>
            dsimp only
            generalize hw₂ : World.setFrame _ ctx _ = w₂
            -- The cursor has moved on, and whether its record can be paid for is another matter.
            cases hlast : ((w₂.meterOf ctx).charge
              (host.prices.readOutput (Word.add e.1.size e.2.size))).1 with
            | error refusal =>
                rcases charge_refused hlast with ⟨hgas, hover⟩
                refine Or.inl ⟨refusal, _, rfl, hgas, hover, ?_, Or.inl hover⟩
                rw [← hw₂]
                exact ht.registry_eq
            | ok paid' =>
                refine Or.inr ⟨some e, _, rfl, hcontinues, ?_, Or.inr ⟨c', ?_, hrecalls'⟩⟩
                · rw [← hw₂]
                  exact ht.registry_eq
                · rw [← hw₂]
                  exact World.cursorAt_replace hc c' _

/-- A step through the handle of the call is the step on the cursor, with the gas reported. -/
theorem next_tracks {id : MemoryId} {pre : Bytes} (hr : r.check = .ok ())
    (hlive : registry.lookup call = .ok ctx) (hshows : ctx.binding.store.Shows id pre)
    (ht : w.Tracks registry ctx number r order prior) :
    (∃ e gas w', host.next ⟨call, number⟩ w = (.ok (.error e, gas), w') ∧
        (∃ limit requested, e = .outOfGas limit requested) ∧ (w'.meterOf ctx).isOver = true ∧
        w'.Tracks registry ctx number r order prior) ∨
      ∃ found gas w', host.next ⟨call, number⟩ w = (.ok (.ok found, gas), w') ∧
        (w.view id pre).Continues r order prior found ∧
        w'.Tracks registry ctx number r order (prior ++ [found]) := by
  rw [← ht.registry_eq] at hlive
  unfold next
  rw [World.withContext_live _ hlive]
  rcases move_tracks host hr hshows ht with
    ⟨e, w', hmove, hgas, hover, ht'⟩ | ⟨found, w', hmove, hnext, ht'⟩
  · rw [hmove]
    exact Or.inl ⟨e, _, w', rfl, hgas, hover, ht'⟩
  · rw [hmove]
    exact Or.inr ⟨found, _, w', rfl, hnext, ht'⟩

/-- A request hands back nothing of the cursor, or the next record of its walk. -/
theorem serve_continues {id : MemoryId} {pre : Bytes} (hregistry : registry.Consistent)
    (hlive : registry.lookup call = .ok ctx) (hshows : ctx.binding.store.Shows id pre)
    (hr : r.check = .ok ()) (q : StorageRequest)
    (ht : w.Tracks registry ctx number r order prior) :
    (host.serve q w).2.Tracks registry ctx number r order
        (prior ++ CursorId.returned ⟨call, number⟩ [(q, (host.serve q w).1)]) ∧
      (CursorId.returned ⟨call, number⟩ [(q, (host.serve q w).1)] = [] ∨
        ∃ found, CursorId.returned ⟨call, number⟩ [(q, (host.serve q w).1)] = [found] ∧
          (w.view id pre).Continues r order prior found) := by
  by_cases hq : q = .next ⟨call, number⟩
  · subst hq
    rw [serve, Action.bind_apply]
    rcases next_tracks host hr hlive hshows ht with
      ⟨e, gas, w', hnext, -, -, ht'⟩ | ⟨found, gas, w', hnext, hcontinues, ht'⟩
    · rw [hnext]
      refine ⟨?_, Or.inl rfl⟩
      change w'.Tracks registry ctx number r order (prior ++ [])
      rw [List.append_nil]
      exact ht'
    · rw [hnext]
      have hback : CursorId.returned ⟨call, number⟩
          [(.next ⟨call, number⟩, .ok (.ok (.record found), gas))] = [found] := by
        unfold CursorId.returned
        rw [List.filterMap_cons, CursorId.handedBack, if_pos rfl, List.filterMap_nil]
      change w'.Tracks registry ctx number r order (prior ++ CursorId.returned ⟨call, number⟩
        [(.next ⟨call, number⟩, .ok (.ok (.record found), gas))]) ∧ _
      rw [hback]
      exact ⟨ht', Or.inr ⟨found, hback, hcontinues⟩⟩
  · -- Any other request leaves the cursor alone.
    have hback : CursorId.returned ⟨call, number⟩ [(q, (host.serve q w).1)] = [] := by
      unfold CursorId.returned
      rw [List.filterMap_cons, CursorId.handedBack_of_ne hq, List.filterMap_nil]
    rw [hback, List.append_nil]
    exact ⟨serve_tracks host hregistry hlive ht q hq, Or.inl rfl⟩

/-- Along any requests the cursor recalls what its own steps have handed back. -/
theorem serveAll_tracks {id : MemoryId} {pre : Bytes} (hregistry : registry.Consistent)
    (hlive : registry.lookup call = .ok ctx) (hshows : ctx.binding.store.Shows id pre)
    (hr : r.check = .ok ()) (qs : List StorageRequest)
    (ht : w.Tracks registry ctx number r order prior) :
    (host.serveAll qs w).2.Tracks registry ctx number r order
      (prior ++ CursorId.returned ⟨call, number⟩ (host.serveAll qs w).1) := by
  induction qs generalizing w prior with
  | nil =>
      rw [serveAll, CursorId.returned, List.filterMap_nil, List.append_nil]
      exact ht
  | cons q qs ih =>
      -- What the first request has handed back is prior to the rest.
      have hrest := ih (serve_continues host hregistry hlive hshows hr q ht).1
      rw [serveAll]
      dsimp only
      rw [CursorId.returned_cons, ← List.append_assoc]
      exact hrest

/-- On records that no request changes, the steps hand back the range, one record after
    another, and none from its end on. -/
theorem serveAll_yields {id : MemoryId} {pre : Bytes} (hregistry : registry.Consistent)
    (hlive : registry.lookup call = .ok ctx) (hshows : ctx.binding.store.Shows id pre)
    (hr : r.check = .ok ()) {t : Records} {all : List Record} (hall : t.range r order = .ok all)
    (qs : List StorageRequest)
    (hsame : ∀ before, before <+: qs → (host.serveAll before w).2.view id pre = t)
    (ht : w.Tracks registry ctx number r order prior)
    (hprior : prior = (List.range prior.length).map (all[·]?)) :
    prior ++ CursorId.returned ⟨call, number⟩ (host.serveAll qs w).1 =
      (List.range
        (prior ++ CursorId.returned ⟨call, number⟩ (host.serveAll qs w).1).length).map
          (all[·]?) := by
  induction qs generalizing w prior with
  | nil =>
      rw [serveAll, CursorId.returned, List.filterMap_nil, List.append_nil]
      exact hprior
  | cons q qs ih =>
      rcases serve_continues host hregistry hlive hshows hr q ht with ⟨ht', hback⟩
      rw [serveAll]
      dsimp only
      rw [CursorId.returned_cons, ← List.append_assoc]
      -- The records are the same at every later moment, and the answers still agree so far.
      refine ih (fun before hbefore => ?_) ht' ?_
      · exact hsame (q :: before) ((List.prefix_cons_inj q).mpr hbefore)
      · rcases hback with hnone | ⟨found, hfound, hcontinues⟩
        · rw [hnone, List.append_nil]
          exact hprior
        · rw [← hsame [] List.nil_prefix] at hall
          rw [hfound, List.length_append, List.length_singleton, List.range_succ, List.map_append,
            ← hprior, hcontinues.eq_getElem? hall hprior]
          rfl

omit host in
/-- A new cursor is found under its number and has handed back nothing. -/
theorem scan_tracks {host : Host} {w' : World} {cursor : CursorId} {gas : Report}
    (hlive : w.registry.lookup call = .ok ctx) (hroom : (w.frameOf ctx).length < Word.top)
    (hscan : host.scan call r order w = (.ok (.ok cursor, gas), w')) :
    r.check = .ok () ∧ cursor.call = call ∧
      w'.Tracks w.registry ctx cursor.number r order [] := by
  rcases scan_ok hscan with ⟨ctx', hlive', hcheck, -, hcursor, hw'⟩
  rw [hlive, Except.ok.injEq] at hlive'
  subst hlive'
  subst hcursor
  subst hw'
  refine ⟨hcheck, rfl, rfl, Or.inr ⟨⟨r, order, false⟩, ?_, Cursor.recalls_new r order⟩⟩
  unfold World.cursorAt
  rw [World.frames_setFrame, if_pos rfl]
  exact Frame.cursor?_push_self hroom r order

/-- A cursor over a stack of scopes of a memory is a walk, whatever requests of whatever
    calls come between its steps. A step fails only for want of gas, which leaves the meter
    over its limit. One that does not fail hands back the first record, as it is stored then,
    of those in the range and past the last key handed back, or none if there is no such
    record; after the first none it hands back none forever. On a store that does not change,
    the steps hand back the range of the store, one record after another, and none from its
    end on.

    `hroom` is about the numbers of cursors, which are words. -/
theorem cursor_walks {host : Host} {prefixes : List Bytes} {id : MemoryId} {w₀ : World}
    {cursor : CursorId} {gas : Report} (hreached : w.registry.Reached)
    (hlive : w.registry.lookup call = .ok ctx)
    (hstore : ctx.binding.store = .stack prefixes (.memory id))
    (hroom : (w.frameOf ctx).length < Word.top)
    (hscan : host.scan call r order w = (.ok (.ok cursor, gas), w₀)) :
    (∀ before, ∃ result used w',
        host.next cursor (host.serveAll before w₀).2 = (.ok (result, used), w') ∧
        (∀ e, result = .error e →
          (∃ limit requested, e = .outOfGas limit requested) ∧ (w'.meterOf ctx).isOver = true) ∧
        ∀ found, result = .ok found →
          ((host.serveAll before w₀).2.view id prefixes.flatten).Continues r order
            (cursor.returned (host.serveAll before w₀).1) found) ∧
      ∃ all, ctx.binding.store.range r order w₀.chain = (.ok (.ok all), w₀.chain) ∧
        ∀ requests,
          (∀ before, before <+: requests →
            (host.serveAll before w₀).2.view id prefixes.flatten =
              w₀.view id prefixes.flatten) →
          cursor.returned (host.serveAll requests w₀).1 =
            (List.range (cursor.returned (host.serveAll requests w₀).1).length).map
              (all[·]?) := by
  have hshows : ctx.binding.store.Shows id prefixes.flatten := by
    rw [hstore]
    exact Store.shows_stack prefixes id
  -- The walk begins with a cursor that has handed back nothing.
  rcases scan_tracks hlive hroom hscan with ⟨hcheck, rfl, htracks⟩
  have hregistry := hreached.consistent
  refine ⟨fun before => ?_, ?_⟩
  · -- Whatever has come before, the cursor recalls what it has handed back.
    have hnow := serveAll_tracks host hregistry hlive hshows hcheck before htracks
    rw [List.nil_append] at hnow
    rcases next_tracks host hcheck hlive hshows hnow with
      ⟨e, used, w', hnext, hgas, hover, -⟩ | ⟨found, used, w', hnext, hcontinues, -⟩
    · refine ⟨.error e, used, w', hnext, fun e' he' => ?_, fun found hfound => ?_⟩
      · cases he'
        exact ⟨hgas, hover⟩
      · cases hfound
    · refine ⟨.ok found, used, w', hnext, fun e he => ?_, fun found' hfound => ?_⟩
      · cases he
      · cases hfound
        exact hcontinues
  · -- The scan has checked the range, so the store has a listing of it.
    have hall : ∃ all, (w₀.view id prefixes.flatten).range r order = .ok all := by
      rw [Records.range_eq, hcheck]
      exact ⟨_, rfl⟩
    rcases hall with ⟨all, hall⟩
    refine ⟨all, ?_, fun requests hsame => ?_⟩
    · rw [hshows.range]
      unfold World.view at hall
      rw [hall]
    · exact serveAll_yields host hregistry hlive hshows hcheck hall requests hsame htracks rfl

end Host

/-- A walk that something is written in front of. -/
theorem Host.cursor_walks_of_write :
    ∃ cursor gas w₀,
      Host.small.scan ⟨1⟩ ⟨none, none⟩ .ascending .small = (.ok (.ok cursor, gas), w₀) ∧
      ∃ result used w',
        Host.small.next cursor (Host.small.serveAll [.set ⟨1⟩ [107] [118]] w₀).2 =
          (.ok (result, used), w') ∧
        (∀ e, result = .error e →
          (∃ limit requested, e = .outOfGas limit requested) ∧
            (w'.meterOf ⟨⟨1⟩, none, 0, .small, 0⟩).isOver = true) ∧
        ∀ found, result = .ok found →
          ((Host.small.serveAll [.set ⟨1⟩ [107] [118]] w₀).2.view 0
            [Store.contractPrefix "a"].flatten).Continues ⟨none, none⟩ .ascending
            (cursor.returned (Host.small.serveAll [.set ⟨1⟩ [107] [118]] w₀).1) found := by
  have hstore : Binding.small.store = .stack [Store.contractPrefix "a"] (.memory 0) := rfl
  have hscan : Host.small.scan ⟨1⟩ ⟨none, none⟩ .ascending .small =
      (.ok (.ok ⟨⟨1⟩, 1⟩, .ofExternal 1000),
        (Host.small.scan ⟨1⟩ ⟨none, none⟩ .ascending .small).2) := rfl
  exact ⟨_, _, _, hscan,
    (Host.cursor_walks World.reached_small World.lookup_small hstore (by decide) hscan).1 _⟩

end ContractHost
