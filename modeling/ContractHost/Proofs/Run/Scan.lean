import ContractHost.Proofs.Host.Exhaustion
import ContractHost.Proofs.Host.Sweep
import ContractHost.Proofs.Run.Billing

/-!
# Scans of a Script

A scan opens a cursor and moves it until a step fails or meets the end. Nothing else ends the
loop, and nothing counts its steps, so it is not plain that it ends. The engine's own loop is
given more steps than there are records, which would hide it if they ran out.

`Script.Drains` is the loop without such a bound, as a relation that is built from the steps it
makes. Where it ends, the engine's loop gives the same if it is allowed that many steps. That it
ends is shown for stacks of scopes over a memory, by induction on the records that the cursor
has before it: each step takes one away, and the last one meets the end.

## Main definitions

* `Script.Drains`, `Script.Scans`: A loop over a cursor, and a scan, with the number of steps.
* `Script.scanRange`, `Script.scanOrder`: What a scan asks for.

## Theorems

* `Script.Drains.drain_eq`, `Script.Scans.perform_eq`: The engine's own loop and scan.
* `Script.drains_midway`: The loop ends.
* `Script.scans_midway`: A scan ends.
* `Script.scan_reports`, `Script.total_of_fits`: The gas that is reported for it.
* `Script.scan_terminates`: The operation, with its output and its gas.
-/

namespace ContractHost

namespace Script

/-! ## The loop without a bound -/

/-- A loop over a cursor that starts with some gas on its report and ends after some number of
    steps, each of them a request to the host. -/
inductive Drains (host : Host) (cursor : CursorId) :
    (steps : Nat) → Report → World → Except Panic (Metered (List Record)) → World → Prop
  | panicked {gas : Report} {w w' : World} {p : Panic}
      (hnext : host.next cursor w = (.error p, w')) : Drains host cursor 1 gas w (.error p) w'
  | refused {gas used : Report} {w w' : World} {e : HostError}
      (hnext : host.next cursor w = (.ok (.error e, used), w')) :
      Drains host cursor 1 gas w (.ok (.error e, gas + used)) w'
  | ended {gas used : Report} {w w' : World}
      (hnext : host.next cursor w = (.ok (.ok none, used), w')) :
      Drains host cursor 1 gas w (.ok (.ok [], gas + used)) w'
  | more {steps : Nat} {gas used : Report} {w w' w'' : World} {e : Record}
      {outcome : Except Panic (Metered (List Record))}
      (hnext : host.next cursor w = (.ok (.ok (some e), used), w'))
      (hrest : Drains host cursor steps (gas + used) w' outcome w'') :
      Drains host cursor (steps + 1) gas w
        (outcome.map fun r => (r.1.map (e :: ·), r.2)) w''

/-- A scan that opens a cursor and loops over it, with the number of steps of the loop. -/
inductive Scans (host : Host) (call : Handle) (r : Range) (order : Order) (w : World) :
    (steps : Nat) → Except Panic (Metered (List Record)) → World → Prop
  | panicked {w' : World} {p : Panic} (hscan : host.scan call r order w = (.error p, w')) :
      Scans host call r order w 0 (.error p) w'
  | refused {w' : World} {e : HostError} {gas : Report}
      (hscan : host.scan call r order w = (.ok (.error e, gas), w')) :
      Scans host call r order w 0 (.ok (.error e, gas)) w'
  | opened {w' w'' : World} {cursor : CursorId} {gas : Report} {steps : Nat}
      {outcome : Except Panic (Metered (List Record))}
      (hscan : host.scan call r order w = (.ok (.ok cursor, gas), w'))
      (hdrains : Drains host cursor steps gas w' outcome w'') :
      Scans host call r order w steps outcome w''

/-- The range of a scan. -/
def scanRange (start stop : Option String) : Range :=
  ⟨start.map Utf8.encode, stop.map Utf8.encode⟩

/-- The order of a scan. -/
def scanOrder (descending : Bool) : Order := if descending then .descending else .ascending

variable {host : Host} {cursor : CursorId} {call : Handle} {steps : Nat} {gas : Report}
  {w w' : World} {outcome : Except Panic (Metered (List Record))}

/-- Whatever number of steps the engine allows, if the loop ends within it, it gives what the
    loop gives. -/
theorem Drains.drain_eq (h : Drains host cursor steps gas w outcome w') {allowed : Nat}
    (hle : steps ≤ allowed) : drain host cursor allowed gas w = (outcome, w') := by
  -- As long as steps are allowed, the two loops make the same one.
  induction h generalizing allowed with
  | panicked hnext =>
      rcases Nat.exists_eq_add_of_le' hle with ⟨allowed, rfl⟩
      rw [drain, Action.bind_apply, hnext]
  | refused hnext | ended hnext =>
      rcases Nat.exists_eq_add_of_le' hle with ⟨allowed, rfl⟩
      rw [drain, Action.bind_apply, hnext]
      rfl
  | @more _ _ _ _ _ _ _ outcome hnext hrest ih =>
      rcases Nat.exists_eq_add_of_le' (Nat.le_trans (Nat.le_add_left 1 _) hle) with ⟨allowed, rfl⟩
      rw [drain, Action.bind_apply, hnext]
      dsimp only
      rw [Action.bind_apply, ih (Nat.le_of_succ_le_succ hle)]
      cases outcome with
      | error p => rfl
      | ok r => rfl

/-- A scan whose loop ends before it has made more steps than there are records in the memory
    behind the call and one for the end is what the engine performs. -/
theorem Scans.perform_eq {s : Setting} {start stop : Option String} {descending : Bool}
    (h : Scans s.host s.call (scanRange start stop) (scanOrder descending) w steps outcome w')
    (hle : steps ≤ recordCount w s.call + 1) (used : Report) :
    perform s used (.scan start stop descending) w =
      (outcome.map fun r => (r.1.map recordsNode, r.2), w') := by
  change (s.host.scan s.call (scanRange start stop) (scanOrder descending) >>= _ :
    World.Action (Metered Node)) w = _
  rw [Action.bind_apply]
  cases h with
  | panicked hscan | refused hscan =>
      rw [hscan]
      rfl
  | opened hscan hdrains =>
      -- Opening the cursor has touched neither the call nor the memory.
      rcases Host.scan_ok hscan with ⟨ctx, -, -, -, -, hw⟩
      rw [hscan]
      dsimp only
      rw [Action.bind_apply, Action.get_apply]
      dsimp only
      rw [Action.bind_apply, hdrains.drain_eq (by rw [hw]; exact hle)]
      cases outcome with
      | error p => rfl
      | ok r => rfl

/-! ## The loop ends -/

section Sweeps

variable (host) {ctx : Context} {number : UInt64} {id : MemoryId} {pre : Bytes} {r : Range}
  {order : Order} {past rest all : List Record}

/-- A loop over a cursor in the middle of its range makes no more than one step for each record
    before the cursor and one for the end. It runs out of gas, if the meter cannot bear the price
    of all these steps, or it makes them all and hands back all the records. -/
theorem drains_midway (hlive : w.registry.lookup call = .ok ctx)
    (hshows : ctx.binding.store.Shows id pre)
    (h : w.Midway ctx number id pre r order past rest) (gas : Report) :
    ∃ steps out used w', Drains host ⟨call, number⟩ steps gas w (.ok (out, used)) w' ∧
      steps ≤ rest.length + 1 ∧
      ((OutOfGas out ∧ (w.meterOf ctx).bound.toNat <
          (w.meterOf ctx).consumed.toNat + host.prices.sweep rest) ∨
        (out = .ok rest ∧ steps = rest.length + 1 ∧
          (w.meterOf ctx).Paid (w'.meterOf ctx) (host.prices.sweep rest))) := by
  -- Each step takes one record from those before the cursor.
  induction rest generalizing past w gas with
  | nil =>
      rw [Prices.sweep_nil]
      rcases Host.next_midway host hlive hshows h with
        ⟨e, used, w', hnext, hgas, hbound⟩ | ⟨used, w', hnext, -, hpaid, -⟩
      · rcases hgas with ⟨limit, requested, rfl⟩
        exact ⟨1, _, _, w', .refused hnext, Nat.le_refl 1, Or.inl ⟨⟨_, _, rfl⟩, hbound⟩⟩
      · exact ⟨1, _, _, w', .ended hnext, Nat.le_refl 1, Or.inr ⟨rfl, rfl, hpaid⟩⟩
  | cons e rest ih =>
      rw [Prices.sweep_cons]
      rcases Host.next_midway host hlive hshows h with
        ⟨e', used, w', hnext, hgas, hbound⟩ | ⟨used, w₁, hnext, hregistry, hpaid, hmidway⟩
      · rcases hgas with ⟨limit, requested, rfl⟩
        rw [List.head?_cons] at hbound
        exact ⟨1, _, _, w', .refused hnext, Nat.le_add_left 1 _,
          Or.inl ⟨⟨_, _, rfl⟩, by omega⟩⟩
      · rw [← hregistry] at hlive
        rw [List.head?_cons] at hpaid
        rcases ih hlive (hmidway e rest rfl) (gas + used) with
          ⟨steps, out, used', w', hdrains, hsteps, hend⟩
        refine ⟨steps + 1, _, _, w', .more hnext hdrains, Nat.succ_le_succ hsteps, ?_⟩
        rcases hend with ⟨⟨limit, requested, rfl⟩, hbound⟩ | ⟨rfl, rfl, hpaid'⟩
        · rw [hpaid.bound, hpaid.consumed] at hbound
          exact Or.inl ⟨⟨limit, requested, rfl⟩, by omega⟩
        · exact Or.inr ⟨rfl, rfl, hpaid.append hpaid'⟩

/-- A scan of a range in order ends, with the loop over its cursor or without one. -/
theorem scans_midway (hlive : w.registry.lookup call = .ok ctx)
    (hshows : ctx.binding.store.Shows id pre) (hroom : (w.frameOf ctx).length < Word.top)
    (hall : (w.view id pre).range r order = .ok all) :
    ∃ steps out gas w', Scans host call r order w steps (.ok (out, gas)) w' ∧
      steps ≤ all.length + 1 ∧
      ((OutOfGas out ∧ (w.meterOf ctx).bound.toNat <
          (w.meterOf ctx).consumed.toNat + host.prices.scan all) ∨
        (out = .ok all ∧ steps = all.length + 1 ∧
          (w.meterOf ctx).Paid (w'.meterOf ctx) (host.prices.scan all))) := by
  unfold Prices.scan
  rcases Host.scan_midway host hlive hroom hall with
    ⟨e, used, w', hscan, hgas, hbound⟩ | ⟨number, used, w₁, hscan, hregistry, hpaid, hmidway⟩
  · rcases hgas with ⟨limit, requested, rfl⟩
    exact ⟨0, _, _, w', .refused hscan, Nat.zero_le _, Or.inl ⟨⟨_, _, rfl⟩, by omega⟩⟩
  · rw [← hregistry] at hlive
    rcases drains_midway host hlive hshows hmidway used with
      ⟨steps, out, gas, w', hdrains, hsteps, hend⟩
    refine ⟨steps, out, gas, w', .opened hscan hdrains, hsteps, ?_⟩
    rcases hend with ⟨hout, hbound⟩ | ⟨hout, hsteps', hpaid'⟩
    · rw [hpaid.bound, hpaid.consumed] at hbound
      exact Or.inl ⟨hout, by omega⟩
    · exact Or.inr ⟨hout, hsteps', hpaid.append hpaid'⟩

/-- A range is in order if its start is not after its end, or one of them is missing. -/
theorem check_scanRange {start stop : Option String}
    (hordered : ∀ a b, start = some a → stop = some b → ¬ Utf8.encode b < Utf8.encode a) :
    (scanRange start stop).check = .ok () := by
  have hinverted : (scanRange start stop).inverted = false := by
    cases start with
    | none => rfl
    | some a =>
        cases stop with
        | none => rfl
        | some b => exact decide_eq_false (hordered a b rfl rfl)
  unfold Range.check
  rw [hinverted]
  rfl

end Sweeps

/-- An operation that has been performed is charged for before anything is handed back. -/
theorem step_of_performed {s : Setting} {used : Report} {op : Op} {output : Node}
    (h : perform s used op w = (.ok (.ok output, gas), w')) :
    step s used op w =
      (.ok (if s.invocation.gasLimit < (used + gas + Report.ofCost opCost).total then
          .error (.outOfGas s.invocation.gasLimit (used + gas + Report.ofCost opCost).total)
        else .ok output, used + gas + Report.ofCost opCost), w') := by
  rw [step_apply, h]
  dsimp only
  split
  · rfl
  · rfl

/-- What fits in what is left of the invocation's gas, with the cost of the operation, is
    reported exactly, and does not take the run over its limit. -/
theorem total_of_fits {used : Report} {limit : UInt64} {charged : Nat}
    (hexternal : gas.external = Word.clamp charged) (hcost : gas.cost = 0)
    (hfits : charged + opCost.toNat ≤ (Word.sub limit used.total).toNat) :
    (used + gas + Report.ofCost opCost).external.toNat = used.external.toNat + charged ∧
      (used + gas + Report.ofCost opCost).cost.toNat = used.cost.toNat + opCost.toNat ∧
      ¬ limit < (used + gas + Report.ofCost opCost).total := by
  have hlimit := Word.toNat_le_top limit
  have hop : opCost.toNat = 1 := rfl
  have hzero : (0 : UInt64).toNat = 0 := rfl
  have hused : used.total.toNat = min (used.cost.toNat + used.external.toNat) Word.top :=
    Word.toNat_add _ _
  rw [Word.toNat_sub, hop] at hfits
  -- What has been used so far has not come to the limit, so no sum is clamped.
  have hexternal' : (used + gas + Report.ofCost opCost).external.toNat =
      used.external.toNat + charged := by
    change (Word.add (Word.add used.external gas.external) 0).toNat = _
    rw [Word.toNat_add, Word.toNat_add, hexternal, Word.toNat_clamp, hzero]
    omega
  have hcost' : (used + gas + Report.ofCost opCost).cost.toNat =
      used.cost.toNat + opCost.toNat := by
    change (Word.add (Word.add used.cost gas.cost) opCost).toNat = _
    rw [Word.toNat_add, Word.toNat_add, hcost, hzero, hop]
    -- Beside the one, the largest word would be counted down as a numeral.
    generalize Word.top = top at hlimit hused ⊢
    omega
  refine ⟨hexternal', hcost', fun hover => ?_⟩
  rw [UInt64.lt_iff_toNat_lt, Report.total, Word.toNat_add, hexternal', hcost'] at hover
  omega

/-- There are no more records in a range than in the memory behind it, so the engine allows the
    steps of the loop. -/
theorem length_le_recordCount {ctx : Context} {prefixes : List Bytes} {id : MemoryId} {r : Range}
    {order : Order} {all : List Record} (hlive : w.registry.lookup call = .ok ctx)
    (hstore : ctx.binding.store = .stack prefixes (.memory id))
    (hall : (w.view id prefixes.flatten).range r order = .ok all) :
    all.length ≤ recordCount w call := by
  have hcount : recordCount w call = (w.chain.memory id).size := by
    unfold recordCount
    rw [hlive]
    dsimp only
    rw [hstore, Store.base_stack]
    rfl
  rw [hcount]
  exact Nat.le_trans (Records.length_le_of_range hall) (Records.size_under_le _ _)

/-- If the meter bears what a scan has charged on it, exactly that is reported. -/
theorem scan_reports {s : Setting} {used : Report} {start stop : Option String}
    {descending : Bool} {ctx : Context} {r : Except HostError Node} {price : Nat}
    (hlive : w.registry.lookup s.call = .ok ctx)
    (hperform : perform s used (.scan start stop descending) w = (.ok (r, gas), w'))
    (hpaid : (w.meterOf ctx).Paid (w'.meterOf ctx) price)
    (hbears : (w.meterOf ctx).consumed.toNat + price ≤ (w.meterOf ctx).bound.toNat) :
    (w'.meterOf ctx).consumed.toNat = (w.meterOf ctx).consumed.toNat + price ∧
      gas.external = Word.clamp price ∧ gas.cost = 0 := by
  have hbound := Word.toNat_le_top (w.meterOf ctx).bound
  have hconsumed := hpaid.consumed
  have hcount : (w'.meterOf ctx).consumed.toNat = (w.meterOf ctx).consumed.toNat + price := by
    omega
  -- The report is the rise of the meter, and the meter has counted all charges.
  have hbilled := scan_billed (World.charges_of_live hlive) hperform
  have hrise : World.consumed ctx.binding.meter w' - World.consumed ctx.binding.meter w + 0 =
      price := by
    change (w'.meterOf ctx).consumed.toNat - (w.meterOf ctx).consumed.toNat + 0 = _
    omega
  have hexternal := hbilled.external
  rw [hrise] at hexternal
  exact ⟨hcount, hexternal, hbilled.cost⟩

/-- A scan by a call on a stack of scopes over a memory, of a range that does not start after its
    end, in either order. The loop over the cursor ends by itself after at most one step for each
    record of the range and one more, and what the engine performs is what the loop gives. The
    operation hands back the records of the range of the store, in order, or is out of gas. If
    the meter bears the price of the scan, and the price and the cost of the operation fit in
    what is left of the invocation's gas, the loop makes all these steps, the records are
    handed back, and exactly the price is charged and reported.

    `hroom` is about the numbers of cursors, which are words. -/
theorem scan_terminates {s : Setting} {ctx : Context} {prefixes : List Bytes} {id : MemoryId}
    (hlive : w.registry.lookup s.call = .ok ctx)
    (hstore : ctx.binding.store = .stack prefixes (.memory id))
    (hroom : (w.frameOf ctx).length < Word.top) {start stop : Option String}
    (hordered : ∀ a b, start = some a → stop = some b → ¬ Utf8.encode b < Utf8.encode a)
    (descending : Bool) (used : Report) :
    ∃ all steps out gas result total w',
      ctx.binding.store.range (scanRange start stop) (scanOrder descending) w.chain =
        (.ok (.ok all), w.chain) ∧
      Scans s.host s.call (scanRange start stop) (scanOrder descending) w steps
        (.ok (out, gas)) w' ∧
      perform s used (.scan start stop descending) w = (.ok (out.map recordsNode, gas), w') ∧
      step s used (.scan start stop descending) w = (.ok (result, total), w') ∧
      steps ≤ all.length + 1 ∧
      (result = .ok (recordsNode all) ∨ OutOfGas result) ∧
      ((w.meterOf ctx).consumed.toNat + s.host.prices.scan all ≤ (w.meterOf ctx).bound.toNat →
        s.host.prices.scan all + opCost.toNat ≤
          (Word.sub s.invocation.gasLimit used.total).toNat →
        steps = all.length + 1 ∧ result = .ok (recordsNode all) ∧
          (w'.meterOf ctx).consumed.toNat =
            (w.meterOf ctx).consumed.toNat + s.host.prices.scan all ∧
          total.external.toNat = used.external.toNat + s.host.prices.scan all ∧
          total.cost.toNat = used.cost.toNat + opCost.toNat) := by
  have hshows : ctx.binding.store.Shows id prefixes.flatten := by
    rw [hstore]
    exact Store.shows_stack prefixes id
  rcases hshows.range_ok (check_scanRange hordered) (scanOrder descending) w.chain with
    ⟨all, hall, hrange⟩
  rcases scans_midway s.host hlive hshows hroom hall with
    ⟨steps, out, gas, w', hscans, hsteps, hend⟩
  -- The engine allows a step for each record of the memory and one more, and the range is a part of
  -- it.
  have hallowed := length_le_recordCount hlive hstore hall
  have hperform := hscans.perform_eq (by omega) used
  rcases hend with ⟨⟨limit, requested, rfl⟩, hbound⟩ | ⟨rfl, hsteps', hpaid⟩
  · have hstep := step_apply s used (.scan start stop descending) w
    rw [hperform] at hstep
    -- Out of gas, the meter could not have borne the whole price.
    refine ⟨all, steps, _, gas, _, _, w', hrange, hscans, hperform, hstep, hsteps,
      Or.inr ⟨_, _, rfl⟩, fun hbears => ?_⟩
    omega
  · refine ⟨all, steps, _, gas, _, _, w', hrange, hscans, hperform, step_of_performed hperform,
      hsteps, ?_, fun hbears hfits => ?_⟩
    · -- Only the invocation's own limit may still stand in the way.
      split
      · exact Or.inr ⟨_, _, rfl⟩
      · exact Or.inl rfl
    · rcases scan_reports hlive hperform hpaid hbears with ⟨hcount, hexternal, hfree⟩
      rcases total_of_fits hexternal hfree hfits with ⟨htotal, hcost, hwithin⟩
      exact ⟨hsteps', if_neg hwithin, hcount, htotal, hcost⟩

/-- What a run shares whose gas is just enough for a scan of two short records. -/
def Setting.exact : Setting :=
  ⟨Host.small, refusal, ⟨.execute, .ofCode [], [], none, [], 1103, false⟩, ⟨1⟩⟩

/-- The small world with two records of the contract and a meter that just bears a scan of
    them. -/
def stocked : World :=
  { World.limited 1102 with
    chain := (World.limited 1102).chain.setMemory Chain.contractMemory
      ((Table.empty.set (Store.contractPrefix "a" ++ [107]) [118]).set
        (Store.contractPrefix "a" ++ [108]) [119]) }

/-- Both records are handed back, the greater one first, and both limits are reached exactly. -/
theorem scan_terminates_of_two :
    ∃ total w', step .exact .free (.scan (some "k") none true) stocked =
        (.ok (.ok (recordsNode [([108], [119]), ([107], [118])]), total), w') ∧
      (w'.meterOf Context.small).consumed.toNat = 1102 ∧ total.external.toNat = 1102 := by
  have hlive : stocked.registry.lookup Setting.exact.call = .ok Context.small := rfl
  have hstore : Context.small.binding.store = .stack [Store.contractPrefix "a"] (.memory 0) := rfl
  have hordered : ∀ a b, some "k" = some a → none = some b →
      ¬ Utf8.encode b < Utf8.encode a := fun a b _ hb => by cases hb
  rcases scan_terminates hlive hstore (by decide) hordered true .free with
    ⟨all, steps, out, gas, result, total, w', hall, -, -, hstep, -, -, hexact⟩
  have hrange : (Context.small.binding.store.range (scanRange (some "k") none) (scanOrder true)
      stocked.chain).1 = .ok (.ok [([108], [119]), ([107], [118])]) := by decide +kernel
  rw [hall] at hrange
  cases hrange
  rcases hexact (by decide +kernel) (by decide +kernel) with
    ⟨-, hresult, hconsumed, hexternal, -⟩
  rw [hresult] at hstep
  exact ⟨total, w', hstep, hconsumed.trans (by decide +kernel),
    hexternal.trans (by decide +kernel)⟩

end Script

end ContractHost
