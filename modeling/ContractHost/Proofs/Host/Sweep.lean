import ContractHost.Proofs.Host.Walk

/-!
# Sweeps through a Range

A sweep opens a cursor and moves it until it meets the end, and nothing comes in between. The
records do not change meanwhile, so the range can be cut into the records that have been handed
out and those that have not, and a step moves one record across the cut. The step that finds no
record left meets the end. It is charged for like the others, but nothing is handed back.

This file has the single steps of a sweep, with what they cost. A step is refused only if the
meter cannot bear it, and if it can, the step takes exactly its price.

## Main definitions

* `Prices.step`: The price of a step that hands back a record or meets the end.
* `Prices.sweep`, `Prices.scan`: The price of all steps, and with it that of the cursor.
* `World.Midway`: A cursor that has handed out some records of a range.

## Theorems

* `Host.next_midway`: A step of a sweep.
* `Host.scan_midway`: The beginning of a sweep.
-/

namespace ContractHost

/-- The price of a step that hands back a record, or meets the end. -/
def Prices.step (p : Prices) (found : Option Record) : Nat :=
  p.iterNext.toNat + found.elim 0 fun e => (p.readOutput (Word.add e.1.size e.2.size)).toNat

/-- The price of all steps of a sweep over some records, the one that meets the end included. -/
def Prices.sweep (p : Prices) (rest : List Record) : Nat :=
  (rest.length + 1) * p.iterNext.toNat +
    (rest.map fun e => (p.readOutput (Word.add e.1.size e.2.size)).toNat).sum

/-- With no record left, only the step that meets the end is paid for. -/
theorem Prices.sweep_nil (p : Prices) : p.sweep [] = p.step none := by
  unfold sweep step
  rw [List.length_nil, Nat.zero_add, Nat.one_mul]
  rfl

/-- The first step of a sweep is paid for like a single one. -/
theorem Prices.sweep_cons (p : Prices) (e : Record) (rest : List Record) :
    p.sweep (e :: rest) = p.step (some e) + p.sweep rest := by
  unfold sweep step
  rw [List.length_cons, Nat.succ_mul, List.map_cons, List.sum_cons, Option.elim_some]
  omega

/-- The price of opening a cursor and of all its steps. -/
def Prices.scan (p : Prices) (all : List Record) : Nat := p.iterCreate.toNat + p.sweep all

/-- A cursor over records under a prefix of a memory that has handed out the records `past` and
    has the records `rest` before it. -/
structure World.Midway (w : World) (ctx : Context) (number : UInt64) (id : MemoryId)
    (pre : Bytes) (r : Range) (order : Order) (past rest : List Record) : Prop where
  range_eq : (w.view id pre).range r order = .ok (past ++ rest)
  recalls : ∃ c, w.cursorAt ctx.serial number = some c ∧ c.Recalls r order (past.map some)

namespace Host

variable (host : Host) {w : World} {call : Handle} {ctx : Context} {number : UInt64}
  {id : MemoryId} {pre : Bytes} {r : Range} {order : Order} {past rest : List Record}

/-- A step hands back the first of the records before the cursor, for its price, or meets the
    end if there are none. It is refused only if the meter cannot bear the price. -/
theorem next_midway (hlive : w.registry.lookup call = .ok ctx)
    (hshows : ctx.binding.store.Shows id pre)
    (h : w.Midway ctx number id pre r order past rest) :
    (∃ e used w', host.next ⟨call, number⟩ w = (.ok (.error e, used), w') ∧
        (∃ limit requested, e = .outOfGas limit requested) ∧
        (w.meterOf ctx).bound.toNat <
          (w.meterOf ctx).consumed.toNat + host.prices.step rest.head?) ∨
      ∃ used w', host.next ⟨call, number⟩ w = (.ok (.ok rest.head?, used), w') ∧
        w'.registry = w.registry ∧
        (w.meterOf ctx).Paid (w'.meterOf ctx) (host.prices.step rest.head?) ∧
        ∀ e rest', rest = e :: rest' →
          w'.Midway ctx number id pre r order (past ++ [e]) rest' := by
  rcases h.recalls with ⟨c, hc, hrecalls⟩
  have hr := (Records.listing_of_range h.range_eq).1
  rcases hrecalls.step hr (w.view id pre) with ⟨found, c', hstep, hcontinues, hrecalls'⟩
  -- What comes next in the walk is the first record behind the cut.
  rw [hcontinues.eq_head? h.range_eq] at hstep hrecalls'
  unfold World.view at hstep
  unfold next
  rw [World.withContext_live _ hlive, move_apply hshows hc]
  dsimp only
  cases hfirst : ((w.meterOf ctx).charge host.prices.iterNext).1 with
  | error e =>
      rcases charge_refused hfirst with ⟨hgas, hover⟩
      rw [World.meterOf_afterCharge] at hover
      have hbound := Meter.bound_lt_of_isOver hover
      -- The first charge alone is more than the meter could bear, so the whole price is.
      refine Or.inl ⟨e, _, _, rfl, hgas, ?_⟩
      unfold Prices.step
      omega
  | ok paid =>
      dsimp only
      rw [hstep]
      have hpaid : (w.meterOf ctx).Paid
          ((w.afterCharge ctx host.prices.iterNext).meterOf ctx) host.prices.iterNext.toNat := by
        rw [World.meterOf_afterCharge]
        exact Meter.paid_charged _ _
      cases rest with
      | nil => exact Or.inr ⟨_, _, rfl, rfl, hpaid, fun e rest' hrest => by cases hrest⟩
      | cons e rest =>
          rw [List.head?_cons] at hrecalls' ⊢
          dsimp only
          generalize hw₂ : World.setFrame _ ctx _ = w₂
          have hmeter : w₂.meterOf ctx =
              (w.afterCharge ctx host.prices.iterNext).meterOf ctx := by
            rw [← hw₂]
            rfl
          rw [← hmeter] at hpaid
          cases hlast : ((w₂.meterOf ctx).charge
            (host.prices.readOutput (Word.add e.1.size e.2.size))).1 with
          | error refusal =>
              rcases charge_refused hlast with ⟨hgas, hover⟩
              rw [World.meterOf_afterCharge] at hover
              have hbound := Meter.bound_lt_of_isOver hover
              rw [hpaid.bound, hpaid.consumed] at hbound
              -- The first charge has been taken, and the two together are more than the meter could
              -- bear.
              refine Or.inl ⟨refusal, _, _, rfl, hgas, ?_⟩
              unfold Prices.step
              rw [Option.elim_some]
              omega
          | ok paid' =>
              have hpaid' := Meter.paid_charged (w₂.meterOf ctx)
                (host.prices.readOutput (Word.add e.1.size e.2.size))
              rw [← World.meterOf_afterCharge] at hpaid'
              refine Or.inr ⟨_, _, rfl, ?_, hpaid.append hpaid', fun e' rest' hrest => ?_⟩
              · rw [← hw₂]
                rfl
              · -- The record is now behind the cut, and neither charge has touched a record.
                cases hrest
                constructor
                · rw [List.append_assoc, ← hw₂]
                  exact h.range_eq
                · rw [List.map_append, ← hw₂]
                  exact ⟨c', World.cursorAt_replace hc c' _, hrecalls'⟩

/-- A cursor that is opened has all records of its range before it. It is refused only if the
    meter cannot bear the price. -/
theorem scan_midway {all : List Record} (hlive : w.registry.lookup call = .ok ctx)
    (hroom : (w.frameOf ctx).length < Word.top)
    (hall : (w.view id pre).range r order = .ok all) :
    (∃ e used w', host.scan call r order w = (.ok (.error e, used), w') ∧
        (∃ limit requested, e = .outOfGas limit requested) ∧
        (w.meterOf ctx).bound.toNat <
          (w.meterOf ctx).consumed.toNat + host.prices.iterCreate.toNat) ∨
      ∃ number used w', host.scan call r order w = (.ok (.ok ⟨call, number⟩, used), w') ∧
        w'.registry = w.registry ∧
        (w.meterOf ctx).Paid (w'.meterOf ctx) host.prices.iterCreate.toNat ∧
        w'.Midway ctx number id pre r order [] all := by
  rw [scan_apply hlive (Records.listing_of_range hall).1]
  dsimp only
  cases hcharge : ((w.meterOf ctx).charge host.prices.iterCreate).1 with
  | error e =>
      rcases charge_refused hcharge with ⟨hgas, hover⟩
      rw [World.meterOf_afterCharge] at hover
      exact Or.inl ⟨e, _, _, rfl, hgas, Meter.bound_lt_of_isOver hover⟩
  | ok paid =>
      refine Or.inr ⟨_, _, _, rfl, rfl, ?_, ?_⟩
      · have hpaid := Meter.paid_charged (w.meterOf ctx) host.prices.iterCreate
        rw [← World.meterOf_afterCharge] at hpaid
        exact hpaid
      · refine ⟨hall, ⟨r, order, false⟩, ?_, Cursor.recalls_new r order⟩
        unfold World.cursorAt
        rw [World.frames_setFrame, if_pos rfl]
        exact Frame.cursor?_push_self hroom r order

end Host

end ContractHost
