import ContractHost.Host.Storage
import ContractHost.Proofs.Chain.Meters
import ContractHost.Proofs.Host.Nested
import ContractHost.Proofs.Store.Walk

/-!
# Cursors of Calls

A call keeps its cursors in a frame, by number, and the frames are kept by the serial
numbers of the calls. This file takes apart the two requests that touch a frame, and says
which requests leave a given cursor where it is: all but its own steps. A new cursor comes
behind the others, and a step replaces the cursor of one number in one frame.

Opening a cursor succeeds in one way only. A step on a cursor that exists is a step on the
records that the store of the call shows, between two charges either of which may be
refused. A refused charge leaves the meter over its limit, and there it stays.

## Main definitions

* `World.cursorAt`: The cursor of a number in the frame of a serial number.
* `World.Retains`, `World.Apart`: The registry is left alone, and a cursor stays, or stays as it
  is.

## Theorems

* `Frame.cursor?_push`, `Frame.cursor?_push_self`, `Frame.exists_cursor?_push`,
  `Frame.cursor?_replace_of_ne`, `Frame.cursor?_replace_self`: Frames.
* `Host.scan_apply`: Opening a cursor.
* `Host.scan_ok`, `Host.scan_ok_cursor`: A cursor has been opened, and is there.
* `Host.next_retains`: A step of any cursor leaves every cursor there.
* `Host.move_apply`: A step on a cursor that exists.
* `Host.scan_apart`, `Host.move_apart` and so on: The requests that leave a cursor alone.
-/

namespace ContractHost

namespace Frame

theorem cursor?_push {f : Frame} {number : UInt64} {c : Cursor} (h : f.cursor? number = some c)
    (r : Range) (order : Order) : (f.push r order).1.cursor? number = some c := by
  have hnumber := cursor?_ne_zero h
  rw [cursor?, if_neg hnumber] at h ⊢
  rw [push, List.getElem?_append_left (List.getElem?_eq_some_iff.mp h).1]
  exact h

/-- The number of a new cursor is its own, unless there are as many cursors as words. -/
theorem cursor?_push_self {f : Frame} (hroom : f.length < Word.top) (r : Range) (order : Order) :
    (f.push r order).1.cursor? (f.push r order).2 = some ⟨r, order, false⟩ := by
  have hnumber : (Word.clamp (f.length + 1)).toNat = f.length + 1 := by
    rw [Word.toNat_clamp]
    omega
  have hzero : Word.clamp (f.length + 1) ≠ 0 := by
    intro h
    rw [h, UInt64.toNat_zero] at hnumber
    omega
  rw [push]
  dsimp only
  rw [cursor?, if_neg hzero, hnumber, Nat.add_sub_cancel, List.getElem?_concat_length]

/-- In any case there is a cursor of that number. -/
theorem exists_cursor?_push (f : Frame) (r : Range) (order : Order) :
    ∃ c, (f.push r order).1.cursor? (f.push r order).2 = some c := by
  have hnumber : (Word.clamp (f.length + 1)).toNat = min (f.length + 1) Word.top :=
    Word.toNat_clamp _
  have hpos : 0 < Word.top := by decide
  have hzero : Word.clamp (f.length + 1) ≠ 0 := by
    intro h
    rw [h, UInt64.toNat_zero] at hnumber
    omega
  have hlt : (Word.clamp (f.length + 1)).toNat - 1 < (f.push r order).1.length := by
    rw [hnumber, push, List.length_append, List.length_singleton]
    omega
  change ∃ c, (f.push r order).1.cursor? (Word.clamp (f.length + 1)) = some c
  rw [cursor?, if_neg hzero]
  exact ⟨_, List.getElem?_eq_getElem hlt⟩

theorem cursor?_replace_of_ne {f : Frame} {number number' : UInt64} (c : Cursor)
    (hnumber : number ≠ 0) (h : number' ≠ number) :
    (f.replace number c).cursor? number' = f.cursor? number' := by
  unfold cursor?
  by_cases hzero : number' = 0
  · rw [if_pos hzero, if_pos hzero]
  · rw [if_neg hzero, if_neg hzero, replace, List.getElem?_set_ne]
    -- Places are numbered from one, so different numbers are different places.
    intro heq
    have hpos : number.toNat ≠ 0 := fun h => hnumber (UInt64.toNat.inj h)
    have hpos' : number'.toNat ≠ 0 := fun h => hzero (UInt64.toNat.inj h)
    exact h (UInt64.toNat.inj (by omega))

theorem cursor?_replace_self {f : Frame} {number : UInt64} {c : Cursor} (c' : Cursor)
    (h : f.cursor? number = some c) : (f.replace number c').cursor? number = some c' := by
  have hnumber := cursor?_ne_zero h
  rw [cursor?, if_neg hnumber] at h ⊢
  rw [replace, List.getElem?_set_self (List.getElem?_eq_some_iff.mp h).1]

end Frame

namespace World

/-- The cursor of a number in the frame of a serial number. -/
def cursorAt (w : World) (serial : Nat) (number : UInt64) : Option Cursor :=
  (w.frames.getD serial []).cursor? number

/-- The frame of one call is written, and the frames of all other serial numbers stay. -/
theorem frames_setFrame (w : World) (ctx : Context) (f : Frame) (serial : Nat) :
    (w.setFrame ctx f).frames.getD serial [] =
      if serial = ctx.serial then f else w.frames.getD serial [] :=
  Table.getD_set w.frames ctx.serial serial f []

/-- A cursor that is replaced is found in its place, whatever else has changed. -/
theorem cursorAt_replace {w : World} {ctx : Context} {number : UInt64} {c : Cursor}
    (hc : w.cursorAt ctx.serial number = some c) (c' : Cursor) (w' : World) :
    (w'.setFrame ctx ((w.frameOf ctx).replace number c')).cursorAt ctx.serial number =
      some c' := by
  unfold cursorAt
  rw [frames_setFrame, if_pos rfl]
  exact Frame.cursor?_replace_self c' hc

/-- The registry is left alone, and a cursor stays there, wherever it may be moved. -/
structure Retains (serial : Nat) (number : UInt64) (w w' : World) : Prop where
  registry : w'.registry = w.registry
  cursor : ∀ c, w.cursorAt serial number = some c → ∃ c', w'.cursorAt serial number = some c'

/-- Charges and other uses of the chain keep every cursor, so it is enough to look at the frames. -/
theorem follows_retains (serial : Nat) (number : UInt64) :
    Follows (fun _ _ => True) (Retains serial number) where
  steady :=
    { refl _ := ⟨rfl, fun c hc => ⟨c, hc⟩⟩
      trans h h' := by
        refine ⟨h'.registry.trans h.registry, fun c hc => ?_⟩
        rcases h.cursor c hc with ⟨c', hc'⟩
        exact h'.cursor c' hc' }
  chain _ _ _ := ⟨rfl, fun c hc => ⟨c, hc⟩⟩

theorem retains_replace {serial : Nat} {number number' : UInt64} (hnumber : number' ≠ 0)
    (w : World) (ctx : Context) (c' : Cursor) :
    Retains serial number w (w.setFrame ctx ((w.frameOf ctx).replace number' c')) where
  registry := rfl
  cursor c hc := by
    unfold cursorAt at hc ⊢
    rw [frames_setFrame]
    by_cases hserial : serial = ctx.serial
    · rw [hserial] at hc
      rw [if_pos hserial]
      -- In the frame itself the cursor asked for is the one that is moved, or another.
      by_cases hsame : number = number'
      · rw [← hsame]
        exact ⟨c', Frame.cursor?_replace_self c' hc⟩
      · exact ⟨c, (Frame.cursor?_replace_of_ne c' hnumber hsame).trans hc⟩
    · exact ⟨c, by rw [if_neg hserial, hc]⟩

/-- The registry and a cursor are left alone, and no meter comes back below its limit. -/
structure Apart (serial : Nat) (number : UInt64) (w w' : World) : Prop where
  registry : w'.registry = w.registry
  meters : w.chain.StaysOver w'.chain
  cursor : ∀ c, w.cursorAt serial number = some c → w'.cursorAt serial number = some c

/-- A use of the chain does not touch the frames, whatever it does to the meters. -/
theorem follows_apart (serial : Nat) (number : UInt64) :
    Follows Chain.StaysOver (Apart serial number) where
  steady :=
    { refl _ := ⟨rfl, fun _ h => h, fun _ h => h⟩
      trans h h' :=
        ⟨h'.registry.trans h.registry, Chain.staysOver_harmless.steady.trans h.meters h'.meters,
          fun c hc => h'.cursor c (h.cursor c hc)⟩ }
  chain _ _ h := ⟨rfl, h, fun _ hc => hc⟩

/-- A new cursor leaves every old one alone, in its own frame and in others. -/
theorem apart_push (serial : Nat) (number : UInt64) (w : World) (ctx : Context) (r : Range)
    (order : Order) :
    Apart serial number w (w.setFrame ctx ((w.frameOf ctx).push r order).1) where
  registry := rfl
  meters _ h := h
  cursor c hc := by
    unfold cursorAt at hc ⊢
    rw [frames_setFrame]
    -- The new cursor comes behind those of its own frame, and other frames stay.
    by_cases hserial : serial = ctx.serial
    · rw [hserial] at hc
      rw [if_pos hserial]
      exact Frame.cursor?_push hc r order
    · rw [if_neg hserial]
      exact hc

/-- Moving one cursor leaves alone every cursor of another number or of another frame. -/
theorem apart_replace {serial : Nat} {number number' : UInt64} {ctx : Context}
    (hother : ctx.serial = serial → number' ≠ number) (hnumber : number' ≠ 0) (w : World)
    (c' : Cursor) :
    Apart serial number w (w.setFrame ctx ((w.frameOf ctx).replace number' c')) where
  registry := rfl
  meters _ h := h
  cursor c hc := by
    unfold cursorAt at hc ⊢
    rw [frames_setFrame]
    by_cases hserial : serial = ctx.serial
    · rw [hserial] at hc
      rw [if_pos hserial, Frame.cursor?_replace_of_ne c' hnumber (hother hserial.symm).symm]
      exact hc
    · rw [if_neg hserial]
      exact hc

end World

namespace Host

/-- Opening a cursor over a range that is in order is a charge, and a cursor behind the others
    if that is not refused. -/
theorem scan_apply {host : Host} {call : Handle} {range : Range} {w : World} {ctx : Context}
    (hlive : w.registry.lookup call = .ok ctx) (hrange : range.check = .ok ()) (order : Order) :
    host.scan call range order w =
      let w₁ := w.afterCharge ctx host.prices.iterCreate
      let gas := Report.ofExternal (Word.sub (w₁.meterOf ctx).consumed (w.meterOf ctx).consumed)
      match ((w.meterOf ctx).charge host.prices.iterCreate).1 with
      | .error e => (.ok (.error e, gas), w₁)
      | .ok () =>
        (.ok (.ok ⟨call, ((w.frameOf ctx).push range order).2⟩, gas),
          w₁.setFrame ctx ((w.frameOf ctx).push range order).1) := by
  unfold scan
  rw [World.withContext_live _ hlive]
  simp only [Attempt.bind_apply, World.onStore_apply, Attempt.ofExcept_apply]
  rw [hrange]
  dsimp only [Except.map, Except.mapError]
  rw [World.charge_apply]
  rcases ((w.meterOf ctx).charge host.prices.iterCreate).1 with e | paid
  · rfl
  · rfl

/-- A cursor has been opened in one way only: its range is in order, the charge was not
    refused, and the frame of the call has one cursor more. -/
theorem scan_ok {host : Host} {call : Handle} {range : Range} {order : Order} {w w' : World}
    {cursor : CursorId} {gas : Report}
    (h : host.scan call range order w = (.ok (.ok cursor, gas), w')) :
    ∃ ctx, w.registry.lookup call = .ok ctx ∧ range.check = .ok () ∧
      ((w.meterOf ctx).charge host.prices.iterCreate).1 = .ok () ∧
      cursor = ⟨call, ((w.frameOf ctx).push range order).2⟩ ∧
      w' = (w.afterCharge ctx host.prices.iterCreate).setFrame ctx
        ((w.frameOf ctx).push range order).1 := by
  -- Every refusal ends the request with an error, against what has been assumed.
  cases hlookup : w.registry.lookup call with
  | error e =>
      unfold scan at h
      rw [World.withContext_dead _ hlookup] at h
      cases h
  | ok ctx =>
      cases hcheck : range.check with
      | error e =>
          unfold scan at h
          rw [World.withContext_live _ hlookup, hcheck] at h
          cases h
      | ok checked =>
          rw [scan_apply hlookup hcheck] at h
          dsimp only at h
          cases hcharge : ((w.meterOf ctx).charge host.prices.iterCreate).1 with
          | error e =>
              rw [hcharge] at h
              cases h
          | ok charged =>
              rw [hcharge] at h
              cases h
              exact ⟨ctx, rfl, rfl, hcharge, rfl, rfl⟩

/-- A step on a cursor that exists is a step on the records that the store shows, between
    two charges. -/
theorem move_apply {host : Host} {ctx : Context} {number : UInt64} {id : MemoryId} {pre : Bytes}
    (hshows : ctx.binding.store.Shows id pre) {w : World} {c : Cursor}
    (hcursor : (w.frameOf ctx).cursor? number = some c) :
    host.move ctx number w =
      let w₁ := w.afterCharge ctx host.prices.iterNext
      match ((w.meterOf ctx).charge host.prices.iterNext).1 with
      | .error e => (.ok (.error e), w₁)
      | .ok () =>
        match c.stepOn ((w.chain.memory id).under pre) with
        | .error e => (.ok (.error (.ofStore e)), w₁)
        | .ok (none, c') => (.ok (.ok none), w₁.setFrame ctx ((w.frameOf ctx).replace number c'))
        | .ok (some e, c') =>
          let w₂ := w₁.setFrame ctx ((w.frameOf ctx).replace number c')
          let price := host.prices.readOutput (Word.add e.1.size e.2.size)
          (.ok (((w₂.meterOf ctx).charge price).1.map fun _ => some e),
            w₂.afterCharge ctx price) := by
  -- A charge does not touch the frame.
  have hsame : ((w.afterCharge ctx host.prices.iterNext).frameOf ctx).cursor? number = some c :=
    hcursor
  unfold move
  rw [Attempt.bind_apply, World.charge_apply]
  dsimp only
  cases ((w.meterOf ctx).charge host.prices.iterNext).1 with
  | error e => rfl
  | ok paid =>
      dsimp only
      rw [Attempt.bind_apply, Attempt.get_apply]
      dsimp only
      rw [hsame]
      dsimp only
      rw [Attempt.bind_apply, World.onStore_apply_of_eq (Cursor.step_eq_stepOn hshows c _)]
      -- The charge has not touched a record.
      have hmemory : (w.afterCharge ctx host.prices.iterNext).chain.memory id =
          w.chain.memory id := rfl
      rw [hmemory]
      rcases c.stepOn ((w.chain.memory id).under pre) with e | ⟨_ | e, c'⟩
      · rfl
      · rfl
      · dsimp only [Except.map, Except.mapError]
        rw [Attempt.bind_apply, Attempt.modify_apply]
        dsimp only
        rw [Attempt.bind_apply, World.charge_apply]
        have hframe : (w.afterCharge ctx host.prices.iterNext).frameOf ctx = w.frameOf ctx := rfl
        rw [hframe]
        -- The last charge does not depend on where the cursor has come to.
        generalize (World.setFrame _ ctx _) = w₂
        rcases ((w₂.meterOf ctx).charge
          (host.prices.readOutput (Word.add e.1.size e.2.size))).1 with refusal | paid
        · rfl
        · rfl

/-- A step of any cursor leaves every cursor there. -/
theorem next_retains (host : Host) (serial : Nat) (number : UInt64) (cursor : CursorId) :
    (host.next cursor).Within (World.Retains serial number) :=
  World.withContext_within (World.follows_retains serial number).steady cursor.call
    (fun ctx => move_within Chain.harmless_trivial (World.follows_retains serial number) host
      (fun hnumber w c => World.retains_replace hnumber w ctx c))

/-- A cursor that has been opened is there. -/
theorem scan_ok_cursor {host : Host} {call : Handle} {range : Range} {order : Order}
    {w w' : World} {cursor : CursorId} {gas : Report} {ctx : Context}
    (h : host.scan call range order w = (.ok (.ok cursor, gas), w'))
    (hlive : w.registry.lookup call = .ok ctx) :
    cursor.call = call ∧ w'.registry = w.registry ∧
      ∃ c, w'.cursorAt ctx.serial cursor.number = some c := by
  -- The context that was found at the request is the one that the registry has now.
  rcases scan_ok h with ⟨ctx', hlive', -, -, rfl, rfl⟩
  rw [hlive, Except.ok.injEq] at hlive'
  subst hlive'
  rcases Frame.exists_cursor?_push (w.frameOf ctx) range order with ⟨c, hc⟩
  refine ⟨rfl, rfl, c, ?_⟩
  unfold World.cursorAt
  rw [World.frames_setFrame, if_pos rfl]
  exact hc

theorem get_apart (host : Host) (serial : Nat) (number : UInt64) (call : Handle) (key : Bytes) :
    (host.get call key).Within (World.Apart serial number) :=
  get_within Chain.staysOver_harmless (World.follows_apart serial number) host call key

theorem set_apart (host : Host) (serial : Nat) (number : UInt64) (call : Handle)
    (key value : Bytes) : (host.set call key value).Within (World.Apart serial number) :=
  set_within Chain.staysOver_harmless (World.follows_apart serial number) host call key value

theorem delete_apart (host : Host) (serial : Nat) (number : UInt64) (call : Handle)
    (key : Bytes) : (host.delete call key).Within (World.Apart serial number) :=
  delete_within Chain.staysOver_harmless (World.follows_apart serial number) host call key

/-- Opening a cursor leaves every other one alone. -/
theorem scan_apart (host : Host) (serial : Nat) (number : UInt64) (call : Handle) (r : Range)
    (order : Order) : (host.scan call r order).Within (World.Apart serial number) :=
  scan_within Chain.staysOver_harmless (World.follows_apart serial number) host call
    (fun w ctx => World.apart_push serial number w ctx r order)

/-- A step leaves every cursor alone but the one of its number in the frame of its call. -/
theorem move_apart (host : Host) {serial : Nat} {number number' : UInt64} {ctx : Context}
    (hother : ctx.serial = serial → number' ≠ number) :
    (host.move ctx number').Within (World.Apart serial number) :=
  move_within Chain.staysOver_harmless (World.follows_apart serial number) host
    (fun hnumber w c => World.apart_replace hother hnumber w c)

end Host

end ContractHost
