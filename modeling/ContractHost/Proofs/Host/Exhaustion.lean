import ContractHost.Proofs.Host.Priced
import ContractHost.Proofs.Small

/-!
# What Requests Cost

A request at a price costs what stands in the price list, to the unit, and it runs out of gas
exactly if that does not fit. Both are said in whole numbers here: with `m` on the meter, `c₁`
for the operation and `c₂` for the bytes it would hand back, the meter comes to `m + c₁ + c₂`,
or to `m + c₁` if that is too much already, and never to more than the largest word. It may
stand over its limit before; then nothing fits any more.

A refused charge stays on the meter, so a meter that is over its limit stays over it, whatever
happens later and whichever calls share it, as long as no capability gives gas back. This is
what the second half is about. `Event` lists what may happen to a world through its host, and
along any events an exhausted meter refuses every request, before the operation behind it has
touched a record or a cursor.

## Main definitions

* `OutOfGas`: A refusal for want of gas.
* `Settles`: How a request ends on a meter with a limit, by the numbers.
* `Host.handedBackPrice`: The price of the bytes that a request would hand back.
* `Host.Event`, `Host.after`: What may happen to a world.
* `Host.Exhausted`: Nothing is paid for by a meter any more.

## Theorems

* `World.priced_settles`: An operation between two charges.
* `Host.after_along`: What events lead to, step by step.
* `Host.exhausted_of_isOver`: A meter over its limit pays for nothing.
* `Host.ask_settles`: What a request costs, and what follows if it cannot be paid.
-/

namespace ContractHost

/-- A refusal for want of gas. -/
def OutOfGas {α : Type} (r : Except HostError α) : Prop :=
  ∃ limit requested, r = .error (.outOfGas limit requested)

/-- How a request ends if `before` is charged for it first and `behind` for what it hands back.
    The meter has a limit and stood at `m` before the request and at `m'` after it. -/
structure Settles {α : Type} (m : Meter) (limit before behind : UInt64) (r : Except HostError α)
    (m' : Meter) : Prop where
  limit_eq : m'.limit = some limit
  outOfGas_iff : OutOfGas r ↔
    limit.toNat < min (m.consumed.toNat + before.toNat + behind.toNat) Word.top
  consumed : m'.consumed.toNat =
    if limit.toNat < min (m.consumed.toNat + before.toNat) Word.top then
      min (m.consumed.toNat + before.toNat) Word.top
    else min (m.consumed.toNat + before.toNat + behind.toNat) Word.top

/-- An answer is no refusal for want of gas. -/
theorem not_outOfGas_ok {α : Type} (a : α) : ¬ OutOfGas (.ok a : Except HostError α) := by
  rintro ⟨limit, requested, h⟩
  exact absurd h (by simp only [reduceCtorEq, not_false_eq_true])

theorem not_outOfGas_error {α : Type} {e : HostError} (h : e.code ≠ .outOfGas) :
    ¬ OutOfGas (.error e : Except HostError α) := by
  rintro ⟨limit, requested, heq⟩
  rw [Except.error.inj heq] at h
  exact h rfl

/-- A charge is over the limit if the sum is, as far as it fits in a word. -/
theorem Meter.isOver_charged_iff {m : Meter} {limit : UInt64} (h : m.limit = some limit)
    (amount : UInt64) :
    (m.charged amount).isOver = true ↔
      limit.toNat < min (m.consumed.toNat + amount.toNat) Word.top := by
  rw [isOver_iff, ← Word.toNat_add]
  constructor
  · rintro ⟨limit', hlimit, hover⟩
    have hsame : limit' = limit := Option.some.inj (hlimit.symm.trans h)
    rw [← hsame]
    exact UInt64.lt_iff_toNat_lt.mp hover
  · exact fun hover => ⟨limit, h, UInt64.lt_iff_toNat_lt.mpr hover⟩

/-- Two charges in a row come to the charge of their sum. -/
theorem Meter.toNat_charged_charged (m : Meter) (amount amount' : UInt64) :
    ((m.charged amount).charged amount').consumed.toNat =
      min (m.consumed.toNat + amount.toNat + amount'.toNat) Word.top := by
  -- Sums that stop at the greatest word may be taken in one.
  have hpaid := (m.paid_charged amount).append ((m.charged amount).paid_charged amount')
  rw [hpaid.consumed, Nat.add_assoc]

namespace Settles

variable {α : Type} {m : Meter} {limit before behind : UInt64} {r : Except HostError α}

/-- What is refused for the first charge is refused for both. -/
theorem refused (hlimit : m.limit = some limit) (hover : (m.charged before).isOver = true)
    {bound requested : UInt64} :
    Settles m limit before behind (.error (.outOfGas bound requested) : Except HostError α)
      (m.charged before) where
  limit_eq := hlimit
  outOfGas_iff := by
    -- A second charge would not bring the sum below the limit again.
    have hlt := (Meter.isOver_charged_iff hlimit before).mp hover
    exact ⟨fun _ => by omega, fun _ => ⟨_, _, rfl⟩⟩
  consumed := by
    rw [if_pos ((Meter.isOver_charged_iff hlimit before).mp hover)]
    exact Word.toNat_add _ _

/-- Both charges are taken, and whether the second one is refused decides the result. -/
theorem sold (hlimit : m.limit = some limit) (hpaid : ¬ (m.charged before).isOver = true)
    (hr : OutOfGas r ↔ ((m.charged before).charged behind).isOver = true) :
    Settles m limit before behind r ((m.charged before).charged behind) where
  limit_eq := hlimit
  outOfGas_iff := by
    have hlimit' : (m.charged before).limit = some limit := hlimit
    rw [hr, Meter.isOver_charged_iff hlimit', Meter.charged, Word.toNat_add]
    omega
  consumed := by
    rw [if_neg (fun h => hpaid ((Meter.isOver_charged_iff hlimit before).mpr h))]
    exact Meter.toNat_charged_charged m before behind

/-- There is nothing to be charged behind the operation, so the first charge is all. -/
theorem free (hlimit : m.limit = some limit) (hpaid : ¬ (m.charged before).isOver = true)
    (hr : ¬ OutOfGas r) : Settles m limit before 0 r (m.charged before) where
  limit_eq := hlimit
  outOfGas_iff := iff_of_false hr fun h => hpaid ((Meter.isOver_charged_iff hlimit before).mpr h)
  consumed := by
    rw [if_neg (fun h => hpaid ((Meter.isOver_charged_iff hlimit before).mpr h))]
    exact Word.toNat_add _ _

/-- A request out of gas leaves its meter over the limit. -/
theorem isOver {m' : Meter} (h : Settles m limit before behind r m') (hr : OutOfGas r) :
    m'.isOver = true := by
  have hover := h.outOfGas_iff.mp hr
  refine Meter.isOver_iff.mpr ⟨limit, h.limit_eq, UInt64.lt_iff_toNat_lt.mpr ?_⟩
  -- Either the first charge is over the limit, or it takes both of them.
  rw [h.consumed]
  split
  · assumption
  · exact hover

end Settles

namespace World

variable {α : Type}

/-- The price of what an operation hands back, or nothing if it ends without handing anything
    back. -/
def behindPrice (behind : α → Option UInt64) : Except Panic (Except HostError α) → UInt64
  | .ok (.ok a) => (behind a).getD 0
  | _ => 0

/-- An operation between two charges on a meter with a limit. It ends in a panic only if the
    operation does and the first charge is paid. -/
theorem priced_settles {operation : Attempt α} (hop : Unmetered operation) {ctx : Context}
    {limit : UInt64} {w : World} (hlimit : (w.meterOf ctx).limit = some limit)
    (hrefuses : ∀ e, (operation w).1 = .ok (.error e) → e.code ≠ .outOfGas) (before : UInt64)
    (behind : α → Option UInt64) :
    (∃ p, (operation w).1 = .error p ∧ ¬ ((w.meterOf ctx).charged before).isOver = true ∧
        (priced ctx before operation behind w).1 = .error p) ∨
      ∃ r w', priced ctx before operation behind w = (.ok r, w') ∧
        Settles (w.meterOf ctx) limit before (behindPrice behind (operation w).1) r
          (w'.meterOf ctx) ∧
        (¬ OutOfGas r → (operation w).1 = .ok r) ∧
        (OutOfGas r → (∀ a, (operation w).1 = .ok (.ok a) → behind a = none) →
          w' = w.afterCharge ctx before) := by
  have hmeter := hop.meterOf w ctx
  rw [priced_apply hop, Meter.charge_eq]
  by_cases hover : ((w.meterOf ctx).charged before).isOver = true
  · -- The first charge is refused, and the operation does not begin.
    rw [if_pos hover]
    refine Or.inr ⟨_, _, rfl, ?_, fun hno => absurd ⟨_, _, rfl⟩ hno, fun _ _ => rfl⟩
    rw [meterOf_afterCharge]
    exact .refused hlimit hover
  · rw [if_neg hover]
    rcases hserved : operation w with ⟨p | e | a, w'⟩
    · exact Or.inl ⟨p, rfl, hover, rfl⟩
    · -- The operation fails on its own account.
      rw [hserved] at hmeter
      have hno := not_outOfGas_error (α := α) (hrefuses e (by rw [hserved]))
      refine Or.inr ⟨_, _, rfl, ?_, fun _ => rfl, fun h => absurd h hno⟩
      rw [meterOf_afterCharge, hmeter]
      exact .free hlimit hover hno
    · rw [hserved] at hmeter
      -- The operation has ended well, and it depends on the answer whether it has a price.
      have hno := not_outOfGas_ok a
      dsimp only at hmeter ⊢
      cases hbehind : behind a with
      | none =>
          refine Or.inr ⟨_, _, rfl, ?_, fun _ => rfl, fun h => absurd h hno⟩
          rw [meterOf_afterCharge, hmeter, behindPrice, hbehind]
          exact .free hlimit hover hno
      | some price =>
          dsimp only
          rw [Meter.charge_eq]
          -- Bytes are handed back, and whether they are sold is up to the second charge.
          by_cases hover' : (((w.meterOf ctx).charged before).charged price).isOver = true
          · rw [if_pos hover']
            refine Or.inr ⟨_, _, rfl, ?_, fun hno => absurd ⟨_, _, rfl⟩ hno, fun _ hfree => ?_⟩
            · rw [meterOf_afterCharge, meterOf_afterCharge, hmeter, behindPrice, hbehind]
              exact .sold hlimit hover (iff_of_true ⟨_, _, rfl⟩ hover')
            · -- What is handed back would have to be free.
              exact absurd (hbehind.symm.trans (hfree a rfl)) (by simp)
          · rw [if_neg hover']
            refine Or.inr ⟨_, _, rfl, ?_, fun _ => rfl, fun h => absurd h hno⟩
            rw [meterOf_afterCharge, meterOf_afterCharge, hmeter, behindPrice, hbehind]
            exact .sold hlimit hover (iff_of_false hno hover')

end World

namespace Host

/-! ## What may happen later -/

/-- What may happen to a world through its host: requests of any calls, and calls that begin
    and end. -/
inductive Event
  | ask (q : PricedRequest)
  | transfer (call : Handle) (receiver payer : String) (coins : List Coin)
  | createContract (call : Handle) (request : CreateRequest) (gasLimit : UInt64)
  | resolveCall (call : Handle) (contract store : String)
  | query (call : Handle) (request : Bytes) (gasLimit : UInt64)
  | register (b : Binding)
  | registerChild (parent : Context) (b : Binding)
  | release (h : Handle)

/-- The world after an event, however it ends. -/
def afterEvent (host : Host) : Event → World → World
  | .ask q, w => (host.ask q w).2
  | .transfer call receiver payer coins, w => (host.transfer call receiver payer coins w).2
  | .createContract call request gasLimit, w => (host.createContract call request gasLimit w).2
  | .resolveCall call contract store, w => (host.resolveCall call contract store w).2
  | .query call request gasLimit, w => (World.query call request gasLimit w).2
  | .register b, w => (w.register b).2
  | .registerChild parent b, w => (w.registerChild parent b).2
  | .release h, w => w.release h

/-- The world after events in a row. -/
def after (host : Host) : List Event → World → World
  | [], w => w
  | e :: es, w => host.after es (host.afterEvent e w)

section

variable {Q : Chain → Chain → Prop} (hQ : Chain.Harmless Q) {host : Host}
  (hcap : host.capabilities.Within Q)

include hQ hcap

theorem ask_along (q : PricedRequest) : (host.ask q).Within (World.Along Q) := by
  have halong := World.follows_along hQ.steady
  have hanswering : ∀ {α β : Type} (f : α → β) {x : World.Action (Metered α)},
      x.Within (World.Along Q) → (World.answering f x).Within (World.Along Q) :=
    fun f _ hx => .bind halong.steady hx (fun _ => .pure halong.steady _)
  -- Each kind of request has its lemma, and the wrapping of the answers adds nothing.
  rcases q with (⟨call, key⟩ | ⟨call, key, value⟩ | ⟨call, key⟩ | ⟨call, r, order⟩ | cursor) |
    ⟨call, human⟩ | ⟨call, canonical⟩
  · exact hanswering _ (hanswering _ (get_within hQ halong host call key))
  · exact hanswering _ (hanswering _ (set_within hQ halong host call key value))
  · exact hanswering _ (hanswering _ (delete_within hQ halong host call key))
  · exact hanswering _ (hanswering _
      (scan_within hQ halong host call (fun w _ => hQ.steady.refl w.chain)))
  · exact hanswering _ (hanswering _ (World.withContext_within halong.steady cursor.call
      (fun _ => move_within hQ halong host (fun _ w _ => hQ.steady.refl w.chain))))
  · exact hanswering _ (canonicalize_within hQ halong host hcap call human)
  · exact hanswering _ (humanize_within hQ halong host hcap call canonical)

theorem afterEvent_along (e : Event) (w : World) : World.Along Q w (host.afterEvent e w) := by
  have halong := World.follows_along hQ.steady
  cases e with
  | ask q => exact ask_along hQ hcap q w
  | transfer call receiver payer coins =>
      exact transfer_within halong host hcap call receiver payer coins w
  | createContract call request gasLimit =>
      exact createContract_within halong host hcap call request gasLimit w
  | resolveCall call contract store =>
      exact resolveCall_along hQ.steady host hcap call contract store w
  | query call request gasLimit =>
      rw [afterEvent, query_idle call request gasLimit w]
      exact halong.steady.refl w
  -- The registry is not part of the chain.
  | register b => exact hQ.steady.refl w.chain
  | registerChild parent b => exact hQ.steady.refl w.chain
  | release h => exact hQ.steady.refl w.chain

theorem after_along (es : List Event) (w : World) : World.Along Q w (host.after es w) := by
  induction es generalizing w with
  | nil => exact hQ.steady.refl w.chain
  | cons e es ih => exact hQ.steady.trans (afterEvent_along hQ hcap e w) (ih _)

end

variable {host : Host} {querier : Querier}

/-- Nothing is paid for by a meter any more. Every request of a call that charges it is
    refused, for want of gas if the request is in order, and has changed no record and no
    cursor. -/
def Exhausted (host : Host) (meter : MeterId) (w : World) : Prop :=
  ∀ q ctx, w.registry.lookup q.call = .ok ctx → ctx.binding.meter = meter →
    ∃ e gas w', host.ask q w = (.ok (.error e, gas), w') ∧
      (q.InOrder → OutOfGas (.error e : Except HostError PricedAnswer)) ∧
      w'.chain.memories = w.chain.memories ∧ w'.frames = w.frames

/-- A meter over its limit refuses the first charge of every request. -/
theorem exhausted_of_isOver (host : Host) {meter : MeterId} {w : World}
    (hover : (w.chain.meter meter).isOver = true) : host.Exhausted meter w := by
  intro q ctx hlive hmeter
  by_cases hq : q.InOrder
  · -- The first charge is refused already.
    have hrefused : ((w.meterOf ctx).charge (q.price host.prices)).1 =
        .error (.outOfGas (w.meterOf ctx).bound (q.price host.prices)) := by
      rw [← hmeter] at hover
      rw [Meter.charge_eq]
      exact if_pos (Meter.isOver_charged hover _)
    rw [ask_eq host hq, World.withContext_live _ hlive]
    unfold World.priced
    rw [Attempt.bind_apply, World.charge_apply, hrefused]
    exact ⟨_, _, _, rfl, fun _ => ⟨_, _, rfl⟩, rfl, rfl⟩
  · -- A range that starts after its end is refused before anything is charged.
    rcases PricedRequest.scan_of_not_inOrder hq with ⟨call, r, order, e, rfl, hcheck⟩
    change ∃ e gas w', World.answering _ (World.answering _ (host.scan call r order)) w =
      (.ok (.error e, gas), w') ∧ _
    have hlive' : w.registry.lookup call = .ok ctx := hlive
    rw [World.answering_answering, scan, World.answering_withContext,
      World.withContext_live _ hlive', Attempt.map_apply, Attempt.bind_apply,
      World.onStore_apply, Attempt.ofExcept_apply, hcheck]
    exact ⟨_, _, _, rfl, fun h => absurd h hq, rfl, rfl⟩

/-! ## What a request costs -/

/-- The price of the bytes that a request would hand back, or nothing if it would hand back
    none. -/
def handedBackPrice (host : Host) (ctx : Context) (q : PricedRequest) (w : World) : UInt64 :=
  World.behindPrice (fun a => a.price? host.prices) (host.offer ctx q w).1

/-- A request at a price that is in order, on a meter with a limit. Its result is a refusal for
    want of gas exactly if the price of the operation and the price of what it would hand back
    do not both fit; otherwise it is what the operation comes to. What is reported is what the
    meter has gone up by. A request for want of gas to write, to remove or to open a cursor
    has changed the meter and nothing else.

    A request for want of gas also exhausts its meter for good, whatever happens later, unless
    a capability gives gas back. The capabilities in memory do not.

    A store may be told to panic. Then there is no result, but only if the store has been
    reached, which takes the first charge to be paid. -/
theorem ask_settles {w : World} {q : PricedRequest} {ctx : Context} {limit : UInt64}
    (hlive : w.registry.lookup q.call = .ok ctx) (hlimit : (w.meterOf ctx).limit = some limit)
    (hq : q.InOrder) (hcap : q.Converts → host.capabilities = .inMemory querier) :
    ((∃ p, (host.offer ctx q w).1 = .error p ∧ (host.ask q w).1 = .error p ∧
          ¬ ((w.meterOf ctx).charged (q.price host.prices)).isOver = true) ∨
        ∃ r gas w', host.ask q w = (.ok (r, gas), w') ∧
          Settles (w.meterOf ctx) limit (q.price host.prices) (host.handedBackPrice ctx q w) r
            (w'.meterOf ctx) ∧
          gas.cost = 0 ∧
          gas.external.toNat =
            (w'.meterOf ctx).consumed.toNat - (w.meterOf ctx).consumed.toNat ∧
          (¬ OutOfGas r → (host.offer ctx q w).1 = .ok r) ∧
          (OutOfGas r → q.Writes → w' = w.afterCharge ctx (q.price host.prices))) ∧
      ∀ r gas w', host.ask q w = (.ok (r, gas), w') → OutOfGas r →
        host.capabilities.Within Chain.StaysOver →
        ∀ later, host.Exhausted ctx.binding.meter (host.after later w') := by
  have hsettles := World.priced_settles (offer_unmetered hcap ctx) hlimit
    (fun e he => offer_refuses hcap he) (q.price host.prices) (fun a => a.price? host.prices)
  rw [ask_eq host hq, World.withContext_live _ hlive]
  rcases hsettles with ⟨p, hoffer, hpaid, hpanic⟩ | ⟨r, w', hserved, hsettles, hoffer, hwrites⟩
  · -- Without a result there is nothing to be said about later requests.
    rcases hserved : World.priced ctx (q.price host.prices) (host.offer ctx q)
      (fun a => a.price? host.prices) w with ⟨x, w'⟩
    rw [hserved] at hpanic
    dsimp only at hpanic
    rw [hpanic]
    exact ⟨Or.inl ⟨p, hoffer, rfl, hpaid⟩, fun r gas w' h => by cases h⟩
  · rw [hserved]
    refine ⟨Or.inr ⟨r, _, w', rfl, hsettles, rfl, Word.toNat_sub _ _, hoffer, ?_⟩, ?_⟩
    · exact fun hgas hq' => hwrites hgas (fun a ha => offer_writes hq' ha host.prices)
    · -- The meter is over its limit now, and stays there along whatever happens later.
      intro r' gas w'' h hgas hstays later
      cases h
      have hover := after_along Chain.staysOver_harmless hstays later w' _ (hsettles.isOver hgas)
      exact exhausted_of_isOver host hover

end Host

/-- A write that is too dear, on a meter that two calls share. -/
theorem Host.ask_settles_of_write :
    ∃ r gas w',
      Host.small.ask (.storage (.set ⟨1⟩ [107] [118])) (World.limited 2000) =
        (.ok (r, gas), w') ∧
      OutOfGas r ∧ gas.external.toNat = 2060 ∧
      w' = (World.limited 2000).afterCharge ⟨⟨1⟩, none, 0, .small, 0⟩ 2060 ∧
      Host.small.Exhausted 0
        (Host.small.after [.register .small, .ask (.storage (.get ⟨2⟩ [107]))] w') := by
  have hlive : (World.limited 2000).registry.lookup ⟨1⟩ = .ok ⟨⟨1⟩, none, 0, .small, 0⟩ := rfl
  have hlimit : ((World.limited 2000).meterOf ⟨⟨1⟩, none, 0, .small, 0⟩).limit = some 2000 := rfl
  have hprice : PricedRequest.price Host.small.prices (.storage (.set ⟨1⟩ [107] [118])) = 2060 := by
    decide
  have hstays : Host.small.capabilities.Within Chain.StaysOver :=
    Capabilities.inMemory_within Chain.staysOver_metering (.answering 1)
  have horder : (PricedRequest.storage (.set ⟨1⟩ [107] [118])).InOrder := trivial
  -- A write needs no capability at all.
  have hcap : (PricedRequest.storage (.set ⟨1⟩ [107] [118])).Converts →
      Host.small.capabilities = .inMemory (.answering 1) := False.elim
  rcases Host.ask_settles hlive hlimit horder hcap with
    ⟨⟨p, hp, -⟩ | ⟨r, gas, w', hask, hsettles, -, hgas, -, hwrites⟩, hlater⟩
  · cases hp
  · rw [hprice] at hsettles hwrites
    have hout : OutOfGas r := hsettles.outOfGas_iff.mpr (by decide)
    refine ⟨r, gas, w', hask, hout, ?_, hwrites hout trivial,
      hlater r gas w' hask hout hstays _⟩
    rw [hgas, hsettles.consumed]
    decide

end ContractHost
