import ContractHost.Proofs.Host.Inquiry
import ContractHost.Proofs.Run.Billing
import ContractHost.Proofs.Script.Op

/-!
# What a Run May Use

A run is handed a limit. It looks at the limit behind every operation, after everything that the
operation has come to has been added up: the coins that were paid, the callee that was resolved,
the run of the callee, and the operation itself. So a run that gets through its script has not used
more than its limit, whatever its callees have used. A callee is handed what the run has left
before the call. It may stay within that and still take the run over its limit, since what is paid
for the coins and the callee comes on top, and then the run is ended behind the call.

Every operation costs the engine something and nothing else does. So the engine gas of a run that
gets through is the number of operations that were performed for it, its own and those of all runs
below it, and there are no more of them than the limit allows for. All sums are clamped, so this
holds as long as the limit is not the greatest word itself: a clamped sum that lies below it has
not been clamped.

## Main definitions

* `World.Costless`: A request that the engine spends nothing on.
* `Script.Start.under`: The run that lies right below given calls.
* `Script.Moment.Reached`: A moment of a run, and what the run has used before it.
* `Engine.KeepsLimit`, `Engine.Tallies`: Engines whose runs keep their limits, and whose engine gas
  is the number of operations.

## Theorems

* `Script.step_ok`: An operation has an output only if its run has kept the limit so far.
* `Script.engineAt_keepsLimit`: A run that gets through has kept its limit.
* `Script.reached_of_mem_pointsAt`: Every point is a moment of the run below the calls above it.
* `Host.answer_costless`: The engine spends nothing on the host.
* `Script.engineAt_tallies`: The engine gas of a run that gets through.
* `Host.run_keeps_limit`: A run of an entry point.
-/

namespace ContractHost

/-! ## Limits -/

/-- No run of the engine gets through with more gas than it is allowed. -/
def Engine.KeepsLimit (engine : Engine) : Prop :=
  ∀ invocation call w output gas w', engine invocation call w = (.ok (.ok output, gas), w') →
    gas.total ≤ invocation.gasLimit

namespace Script

variable {s : Setting} {used gas : Report} {w w' : World}

/-- An operation with an output has been performed and charged for, and has kept the limit. -/
theorem step_ok {op : Op} {output : Node} (h : step s used op w = (.ok (.ok output, gas), w')) :
    ∃ gas', perform s used op w = (.ok (.ok output, gas'), w') ∧
      gas = used + gas' + Report.ofCost opCost ∧ gas.total ≤ s.invocation.gasLimit := by
  rw [step_apply] at h
  rcases hperform : perform s used op w with ⟨p | ⟨e | output', gas'⟩, w₁⟩
  · rw [hperform] at h
    cases h
  · rw [hperform] at h
    cases h
  · rw [hperform] at h
    dsimp only at h
    split at h
    · cases h
    · next hwithin =>
      cases h
      exact ⟨gas', rfl, rfl, UInt64.not_lt.mp hwithin⟩

/-- A script gets through if its first operation has an output and the rest of it gets through. -/
theorem runOps_cons_ok {op : Op} {ops : List Op} {outputs : List Node}
    (h : runOps s used (op :: ops) w = (.ok (.ok outputs, gas), w')) :
    ∃ output used' w₁ rest, step s used op w = (.ok (.ok output, used'), w₁) ∧
      runOps s used' ops w₁ = (.ok (.ok rest, gas), w') := by
  rw [runOps_cons_apply] at h
  rcases hstep : step s used op w with ⟨p | ⟨e | output, used'⟩, w₁⟩
  · rw [hstep] at h
    cases h
  · rw [hstep] at h
    cases h
  · rw [hstep] at h
    dsimp only at h
    rcases hrest : runOps s used' ops w₁ with ⟨p | ⟨e | rest, used''⟩, w₂⟩
    · rw [hrest] at h
      cases h
    · rw [hrest] at h
      cases h
    · rw [hrest] at h
      cases h
      exact ⟨output, used', w₁, rest, rfl, hrest⟩

/-- A script that has kept the limit so far keeps it to the end. -/
theorem runOps_keepsLimit {ops : List Op} {outputs : List Node}
    (hsofar : used.total ≤ s.invocation.gasLimit)
    (h : runOps s used ops w = (.ok (.ok outputs, gas), w')) :
    gas.total ≤ s.invocation.gasLimit := by
  -- Every output has been checked against the limit, so the last one says it of the whole script.
  induction ops generalizing used w outputs with
  | nil =>
      cases h
      exact hsofar
  | cons op ops ih =>
      rcases runOps_cons_ok h with ⟨output, used', w₁, rest, hstep, hrest⟩
      rcases step_ok hstep with ⟨gas', -, -, hwithin⟩
      exact ih hwithin hrest

/-- A run that gets through is a script that gets through. -/
theorem engineOver_ok {host : Host} {nested : Engine} {invocation : Invocation} {call : Handle}
    {output : Bytes} (h : engineOver host nested invocation call w = (.ok (.ok output, gas), w')) :
    ∃ ops outputs, decode? invocation.msg = some ops ∧
      runOps ⟨host, nested, invocation, call⟩ .free ops (noted invocation call w) =
        (.ok (.ok outputs, gas), w') := by
  rw [engineOver_apply] at h
  cases hdecode : decode? invocation.msg with
  | none =>
      rw [hdecode] at h
      cases h
  | some ops =>
      rw [hdecode] at h
      dsimp only at h
      rcases hrun : runOps ⟨host, nested, invocation, call⟩ .free ops (noted invocation call w)
        with ⟨p | ⟨e | outputs, used⟩, w₁⟩
      · rw [hrun] at h
        cases h
      · rw [hrun] at h
        cases h
      · rw [hrun] at h
        cases h
        exact ⟨ops, outputs, rfl, hrun⟩

/-- A run that gets through has kept its limit, whatever its callees run on. -/
theorem engineOver_keepsLimit (host : Host) (nested : Engine) :
    (engineOver host nested).KeepsLimit := by
  intro invocation call w output gas w' h
  rcases engineOver_ok h with ⟨ops, outputs, -, hrun⟩
  -- Nothing has been used at the start.
  exact runOps_keepsLimit (s := ⟨host, nested, invocation, call⟩) UInt64.zero_le hrun

theorem refusal_keepsLimit : refusal.KeepsLimit := by
  intro invocation call w output gas w' h
  cases h

/-- Runs of every level keep their limits. -/
theorem engineAt_keepsLimit (host : Host) (level : Nat) : (engineAt host level).KeepsLimit := by
  -- The bound is the invocation's own, so nothing has to be known of the runs below.
  cases level with
  | zero => exact engineOver_keepsLimit host refusal
  | succ level => exact engineOver_keepsLimit host (engineAt host level)

/-- The callees of all levels keep their limits. -/
theorem nested_keepsLimit (host : Host) (level : Nat) {above : List Moment} {start : Start} :
    ∀ p ∈ pointsAt host level above start, p.now.setting.nested.KeepsLimit := by
  induction level generalizing above start with
  | zero =>
      intro p hp
      rcases mem_pointsOver_iff.mp hp with ⟨ops, -, m, hm, rfl | ⟨_, -, hinner⟩⟩
      · rw [(moments_op m hm).1]
        exact refusal_keepsLimit
      · exact absurd hinner List.not_mem_nil
  | succ level ih =>
      intro p hp
      rcases mem_pointsOver_iff.mp hp with ⟨ops, -, m, hm, rfl | ⟨_, -, hinner⟩⟩
      · rw [(moments_op m hm).1]
        exact engineAt_keepsLimit host level
      · exact ih p hinner

/-! ## What a run has used so far -/

/-- The run right below given calls, the innermost of which is the first: the one that this call has
    started, or the given one if there is no call. -/
def Start.under (root : Start) : (above : List Moment) → Option Start
  | [] => some root
  | m :: _ => m.opened

/-- The moment comes up in the run that starts there. The operations before it have all had their
    outputs, and what the run has reported for them is what the moment finds used. -/
structure Moment.Reached (m : Moment) (start : Start) : Prop where
  invocation : m.setting.invocation = start.invocation
  call : m.setting.call = start.call
  before : ∃ earlier later outputs,
    decode? start.invocation.msg = some (earlier ++ m.op :: later) ∧
    runOps m.setting .free earlier (noted start.invocation start.call start.world) =
      (.ok (.ok outputs, m.used), m.world)

/-- What a moment finds used, and the world it finds, are what the operations before it leave. -/
theorem moments_reached {ops : List Op} {m : Moment} (hm : m ∈ moments s used ops w) :
    ∃ earlier later outputs, ops = earlier ++ m.op :: later ∧
      runOps s used earlier w = (.ok (.ok outputs, m.used), m.world) := by
  induction ops generalizing used w with
  | nil => exact absurd hm List.not_mem_nil
  | cons op ops ih =>
      rw [moments] at hm
      rcases List.mem_cons.mp hm with rfl | hlater
      · -- The first moment has nothing before it, and a later one has the first operation too.
        exact ⟨[], ops, [], rfl, rfl⟩
      · rcases hstep : step s used op w with ⟨p | ⟨e | output, used'⟩, w₁⟩
        · rw [hstep] at hlater
          exact absurd hlater List.not_mem_nil
        · rw [hstep] at hlater
          exact absurd hlater List.not_mem_nil
        · rw [hstep] at hlater
          rcases ih hlater with ⟨earlier, later, outputs, rfl, hrun⟩
          refine ⟨op :: earlier, later, output :: outputs, rfl, ?_⟩
          rw [runOps_cons_apply, hstep]
          dsimp only
          rw [hrun]
          rfl

/-- A moment of the script of a run is reached in that run. -/
theorem reached_of_mem_moments {host : Host} {nested : Engine} {start : Start} {ops : List Op}
    {m : Moment} (hdecode : decode? start.invocation.msg = some ops)
    (hm : m ∈ moments ⟨host, nested, start.invocation, start.call⟩ .free ops
      (noted start.invocation start.call start.world)) : m.Reached start := by
  have hsetting := (moments_op m hm).1
  rcases moments_reached hm with ⟨earlier, later, outputs, rfl, hrun⟩
  refine ⟨congrArg Setting.invocation hsetting, congrArg Setting.call hsetting, earlier, later,
    outputs, hdecode, ?_⟩
  rw [hsetting]
  exact hrun

/-- Every point is a moment of the run right below the calls that it lies below. -/
theorem reached_of_mem_pointsAt (host : Host) (level : Nat) {root : Start} {above : List Moment}
    {start : Start} (hunder : root.under above = some start) :
    ∀ p ∈ pointsAt host level above start, ∃ start', root.under p.above = some start' ∧
      p.now.Reached start' := by
  induction level generalizing above start with
  | zero =>
      intro p hp
      rcases mem_pointsOver_iff.mp hp with ⟨ops, hdecode, m, hm, rfl | ⟨_, -, hinner⟩⟩
      · exact ⟨start, hunder, reached_of_mem_moments hdecode hm⟩
      · exact absurd hinner List.not_mem_nil
  | succ level ih =>
      intro p hp
      rcases mem_pointsOver_iff.mp hp with ⟨ops, hdecode, m, hm, rfl | ⟨start', hopened, hinner⟩⟩
      · exact ⟨start, hunder, reached_of_mem_moments hdecode hm⟩
      · -- The run below is the one that this moment has started, and its points lie below the
        -- moment.
        have hinside : root.under (m :: above) = some start' := hopened
        exact ih hinside p hinner

end Script

/-! ## Engine gas -/

namespace World

variable {α β : Type}

/-- Whatever is reported for the request is gas of the host's side. -/
def Costless (x : World.Action (Metered α)) : Prop := x.Yields fun r => r.2.cost = 0

/-- What is made of an answer costs the engine nothing either. -/
theorem Costless.map {x : World.Action (Metered α)} (hx : Costless x)
    (f : Except HostError α → Except HostError β) :
    Costless (do
      let (r, gas) ← x
      return (f r, gas)) :=
  Action.Yields.bind hx (fun _ hr => .pure hr)

/-- A request of a call reports gas of the meter only. -/
theorem withContext_costless (h : Handle) (serve : Context → World.Attempt α) :
    Costless (withContext h serve) := by
  intro w r w' hserved
  cases hlookup : w.registry.lookup h with
  | error e =>
      rw [withContext_dead serve hlookup] at hserved
      cases hserved
      rfl
  | ok ctx =>
      rw [withContext_live serve hlookup] at hserved
      rcases hresult : serve ctx w with ⟨p | result, w₁⟩
      · rw [hresult] at hserved
        cases hserved
      · rw [hresult] at hserved
        cases hserved
        rfl

theorem query_costless (call : Handle) (request : Bytes) (gasLimit : UInt64) :
    Costless (query call request gasLimit) := by
  intro w r w' hquery
  -- Which meter is followed does not matter for what the engine spends.
  have hbilled : w.Billed 0 w' r.2.total.toNat 0 r.2 := Script.query_billed hquery
  exact hbilled.cost

end World

theorem Report.cost_add (r s : Report) : (r + s).cost = Word.add r.cost s.cost := rfl

theorem Report.cost_add_eq_zero {r s : Report} (hr : r.cost = 0) (hs : s.cost = 0) :
    (r + s).cost = 0 := by
  rw [cost_add, hr, Word.zero_add, hs]

namespace Host

/-- The engine spends nothing on what it asks the host for. -/
theorem answer_costless (host : Host) (q : Inquiry) : World.Costless (host.answer q) := by
  by_cases hq : q.Queries
  · cases q with
    | query call request gasLimit => exact World.query_costless call request gasLimit
    | _ => exact hq.elim
  · -- Every other inquiry is one of a call, and reports what the meter of the call has gone up by.
    rcases answer_withContext host hq with ⟨serve, hserve⟩
    rw [hserve]
    exact World.withContext_costless q.call serve

theorem payFunds_costless (host : Host) (call : Handle) (request : ContractCall) :
    World.Costless (host.payFunds call request) := by
  unfold payFunds
  split
  · exact .pure rfl
  · exact host.answer_costless (.transfer call request.contract request.sender request.funds)

theorem openCall_costless (host : Host) (call : Handle) (request : ContractCall) :
    World.Costless (host.openCall call request) := by
  unfold openCall
  refine .bind (payFunds_costless host call request) (fun paid hpaid => ?_)
  rcases paid with ⟨e | _, payGas⟩
  · exact .pure hpaid
  · refine .after (fun w => ?_)
    cases storeAddressFor call request w with
    | error e => exact .pure hpaid
    | ok store =>
        refine .bind (host.answer_costless (.resolveCall call request.contract store))
          (fun resolved hresolved => ?_)
        exact .pure (Report.cost_add_eq_zero hpaid hresolved)

end Host

/-- If a run of the engine gets through, its engine gas is the number of its points. -/
def Engine.Tallies (engine : Engine)
    (points : List Script.Moment → Script.Start → List Script.Point) : Prop :=
  ∀ above start output gas w',
    engine start.invocation start.call start.world = (.ok (.ok output, gas), w') →
    gas.cost = Word.clamp (points above start).length

namespace Script

theorem drain_costless (host : Host) (cursor : CursorId) (steps : Nat) {gas : Report}
    (hgas : gas.cost = 0) : World.Costless (drain host cursor steps gas) := by
  induction steps generalizing gas with
  | zero => exact .pure hgas
  | succ steps ih =>
      refine .bind (host.answer_costless (.next cursor)) (fun found hfound => ?_)
      have hsum := Report.cost_add_eq_zero hgas hfound
      rcases found with ⟨e | _ | e, used⟩
      · exact .pure hsum
      · exact .pure hsum
      · exact (ih hsum).map fun rest => rest.map (e :: ·)

/-- The engine spends nothing on an operation that runs no other script, besides its own charge. -/
theorem leaf_costless (s : Setting) (used : Report) {op : Op} (h : op.IsLeaf) :
    World.Costless (perform s used op) := by
  cases op with
  | set key value => exact (s.host.answer_costless (.set s.call _ _)).map _
  | get key => exact (s.host.answer_costless (.get s.call _)).map _
  | delete key => exact (s.host.answer_costless (.delete s.call _)).map _
  | scan start stop descending =>
      refine .bind (s.host.answer_costless (.scan s.call _ _)) (fun opened hopened => ?_)
      rcases opened with ⟨e | cursor, gas⟩
      · exact .pure hopened
      · exact .after fun w => (drain_costless s.host cursor _ hopened).map _
  | call contract delegate funds ops => exact h.elim
  | query request gasLimit => exact ((World.query_costless s.call _ gasLimit).map _).map _
  | canonicalize address => exact (s.host.answer_costless (.canonicalize s.call address)).map _
  | fail message => exact .pure rfl
  | panic message => exact .panic _ _

/-- Nothing lies below an operation that runs no other script. -/
theorem Moment.inner_leaf (below : List Moment → Start → List Point) (above : List Moment)
    {m : Moment} (h : m.op.IsLeaf) : m.inner below above = [] := by
  unfold inner
  cases hopened : m.opened with
  | none => rfl
  | some start =>
      -- Only a call starts a run.
      rcases opened_cases hopened with ⟨_, _, _, _, _, _, _, hop, -⟩
      rw [hop] at h
      exact h.elim

section

variable {s : Setting} {below : List Moment → Start → List Point}
  (hnested : s.nested.Tallies below) (above : List Moment) {used gas : Report} {w w' : World}

include hnested

/-- Besides its own charge, the engine gas of an operation is that of the run that it starts. -/
theorem perform_tallies {op : Op} {output : Node}
    (h : perform s used op w = (.ok (.ok output, gas), w')) :
    gas.cost = Word.clamp (Moment.inner below above ⟨s, used, op, w⟩).length := by
  by_cases hleaf : op.IsLeaf
  · -- No run has been started, and the report has no engine gas.
    rw [Moment.inner_leaf below above hleaf, leaf_costless s used hleaf _ _ _ h]
    rfl
  · cases op with
    | call contract delegate funds ops =>
        rcases Moment.performed_call h with ⟨_, hr, -⟩ | ⟨_, _, _, _, hr, -⟩ |
          ⟨start, r, gas', w₁, hopened, hrun, hr⟩
        · cases hr
        · cases hr
        · rcases Moment.performed_opened hopened with
            ⟨request, child, openGas, hopen, -, hperformed⟩
          -- An output that can be read is one that the run of the callee has had.
          cases r with
          | error e => cases hr
          | ok output' =>
              dsimp only at hopen hperformed
              rw [hrun] at hperformed
              have hgas : gas = openGas + gas' :=
                (Prod.mk.inj (Except.ok.inj (Prod.mk.inj (h.symm.trans hperformed)).1)).2
              rw [hgas, Report.cost_add, s.host.openCall_costless s.call request _ _ _ hopen,
                Word.zero_add]
              unfold Moment.inner
              rw [hopened]
              exact hnested _ _ _ _ _ hrun
    | _ => exact absurd trivial hleaf

/-- An operation counts for itself and for the operations below it. -/
theorem step_tallies {op : Op} {output : Node} {n : Nat} (hsofar : used.cost = Word.clamp n)
    (h : step s used op w = (.ok (.ok output, gas), w')) :
    gas.cost = Word.clamp (n + (Moment.points below above ⟨s, used, op, w⟩).length) := by
  rcases step_ok h with ⟨gas', hperform, rfl, -⟩
  -- The sums are clamped one after another, which is the same as clamping the whole sum.
  rw [Report.cost_add, Report.cost_add, hsofar, perform_tallies hnested above hperform,
    Word.add_clamp]
  exact Word.add_clamp _ 1

theorem runOps_tallies {ops : List Op} {outputs : List Node} {n : Nat}
    (hsofar : used.cost = Word.clamp n)
    (h : runOps s used ops w = (.ok (.ok outputs, gas), w')) :
    gas.cost =
      Word.clamp (n + ((moments s used ops w).flatMap (Moment.points below above)).length) := by
  -- The count goes on from `n`, which is what the operations before have come to.
  induction ops generalizing used w n outputs with
  | nil =>
      cases h
      exact hsofar
  | cons op ops ih =>
      rcases runOps_cons_ok h with ⟨output, used', w₁, rest, hstep, hrest⟩
      rw [moments, List.flatMap_cons, List.length_append, ← Nat.add_assoc, hstep]
      exact ih (step_tallies hnested above hsofar hstep) hrest

omit s hnested in
/-- The points of a run are those of its script. -/
theorem engineOver_tallies {host : Host} {nested : Engine} (hnested : nested.Tallies below) :
    (engineOver host nested).Tallies (pointsOver host nested below) := by
  intro above start output gas w' h
  rcases engineOver_ok h with ⟨ops, outputs, hdecode, hrun⟩
  have htally := runOps_tallies (s := ⟨host, nested, start.invocation, start.call⟩) (n := 0)
    hnested above rfl hrun
  rw [Nat.zero_add] at htally
  unfold pointsOver
  rw [hdecode]
  exact htally

end

theorem refusal_tallies : refusal.Tallies fun _ _ => [] := by
  intro above start output gas w' h
  cases h

/-- The engine gas of a run that gets through is the number of operations at all levels. -/
theorem engineAt_tallies (host : Host) (level : Nat) :
    (engineAt host level).Tallies (pointsAt host level) := by
  induction level with
  | zero => exact engineOver_tallies refusal_tallies
  | succ level ih => exact engineOver_tallies ih

end Script

/-- If the engine gas is a clamped number and all gas lies within a limit that is not the greatest
    word, then the number has not been clamped and lies within the limit as well. -/
theorem Report.cost_exact {gas : Report} {limit : UInt64} {n : Nat}
    (hcost : gas.cost = Word.clamp n) (hwithin : gas.total ≤ limit)
    (hlimit : limit.toNat < Word.top) : gas.cost.toNat = n ∧ n ≤ limit.toNat := by
  -- The engine gas is part of the total, so it lies below the greatest word.
  have htotal := UInt64.le_iff_toNat_le.mp hwithin
  rw [total, Word.toNat_add, hcost, Word.toNat_clamp] at htotal
  rw [hcost, Word.toNat_clamp]
  omega

namespace Host

/-- Where the run of an entry point starts. -/
def root (host : Host) (binding : Binding) (request : Request) (w : World) : Script.Start :=
  ⟨host.topInvocation request, (w.register binding).1, (w.register binding).2⟩

/-- Wherever a run of an entry point has got to, it is at an operation of the script of one of its
    runs, and what this run has reported for the operations before it is known there. If the
    operation starts the run of a callee, then that may use what its caller has left, and if it gets
    through, it has not used more. If the whole run gets through, it has not used more than it may
    either. Then its engine gas is the number of operations that have been performed, counted at all
    levels, and there are not more of them than it may use gas, unless it may use as much as there
    can be. -/
theorem run_keeps_limit (host : Host) (binding : Binding) (request : Request) (w : World) :
    (∀ p ∈ host.points binding request w, ∃ start,
      (host.root binding request w).under p.above = some start ∧ p.now.Reached start ∧
      ∀ callee, p.now.opened = some callee →
        callee.invocation.gasLimit.toNat =
          start.invocation.gasLimit.toNat - p.now.used.total.toNat ∧
        ∀ output gas w', p.now.setting.nested callee.invocation callee.call callee.world =
          (.ok (.ok output, gas), w') → gas.total ≤ callee.invocation.gasLimit) ∧
    ∀ output gas w',
      host.run (Script.engine host) binding request w = (.ok (.ok output, gas), w') →
      gas.total ≤ request.gasLimit ∧
      (request.gasLimit.toNat < Word.top →
        gas.cost.toNat = (host.points binding request w).length ∧
        (host.points binding request w).length ≤ request.gasLimit.toNat) := by
  refine ⟨fun p hp => ?_, fun output gas w' h => ?_⟩
  · have hroot : (host.root binding request w).under [] = some (host.root binding request w) := rfl
    rcases Script.reached_of_mem_pointsAt host nestingLimit hroot p hp with
      ⟨start, hunder, hreached⟩
    refine ⟨start, hunder, hreached, fun callee hopened => ⟨?_, fun output gas w' h => ?_⟩⟩
    · rcases Script.Moment.performed_opened hopened with ⟨_, _, _, -, hlimit, -⟩
      rw [hlimit, Word.toNat_sub, hreached.invocation]
    · exact Script.nested_keepsLimit host nestingLimit p hp _ _ _ _ _ _ h
  · -- The release at the end of the run does not change what is reported.
    rw [run_apply] at h
    have hengine : (Script.engine host (host.topInvocation request) (w.register binding).1
        (w.register binding).2).1 = .ok (.ok output, gas) := congrArg Prod.fst h
    have hwithin : gas.total ≤ request.gasLimit :=
      Script.engineAt_keepsLimit host nestingLimit _ _ _ _ _ _ (Prod.ext hengine rfl)
    exact ⟨hwithin, Report.cost_exact
      (Script.engineAt_tallies host nestingLimit [] _ _ _ _ (Prod.ext hengine rfl)) hwithin⟩

end Host

/-- A script with a nested call, which may use just as much gas as it does. -/
def Host.Request.exact : Host.Request :=
  .executing [.set "k" "v", .call "b" false [] [.set "k" "v"]] 4123

/-- The callee may use what the write before the call has left, and all of it together is what the
    run may use. -/
theorem Host.run_keeps_limit_of_callee :
    (∃ output w', Host.small.run (Script.engine .small) .small .exact .pair =
        (.ok (.ok output, ⟨3, 4120⟩), w') ∧
      Report.total ⟨3, 4120⟩ ≤ (4123 : UInt64) ∧
      (3 : UInt64).toNat = (Host.small.points .small .exact .pair).length) ∧
    ∃ p ∈ Host.small.points .small .exact .pair, ∃ callee,
      p.now.opened = some callee ∧ p.now.used = ⟨1, 2060⟩ ∧
      callee.invocation.gasLimit.toNat = 4123 - 2061 := by
  rcases Host.run_keeps_limit .small .small .exact .pair with ⟨hcallees, hroot⟩
  constructor
  · have hgas : (Host.small.run (Script.engine .small) .small .exact .pair).1.toOption.map
        (fun r => (r.1.isOk, r.2)) = some (true, ⟨3, 4120⟩) := by decide +kernel
    rcases hrun : Host.small.run (Script.engine .small) .small .exact .pair with
      ⟨p | ⟨e | output, gas⟩, w'⟩
    · rw [hrun] at hgas
      cases hgas
    · rw [hrun] at hgas
      cases hgas
    · rw [hrun] at hgas
      cases hgas
      rcases hroot output _ w' hrun with ⟨hwithin, hlength⟩
      exact ⟨output, w', rfl, hwithin, (hlength (by decide)).1⟩
  · have hpoints : (Host.small.points .small .exact .pair).map
        (fun p => (p.above.length, p.now.opened.isSome, p.now.used)) =
        [(0, false, ⟨0, 0⟩), (0, true, ⟨1, 2060⟩), (1, false, ⟨0, 0⟩)] := by decide +kernel
    have hmem : (0, true, ⟨1, 2060⟩) ∈ (Host.small.points .small .exact .pair).map
        (fun p => (p.above.length, p.now.opened.isSome, p.now.used)) := by
      rw [hpoints]
      decide
    rcases List.mem_map.mp hmem with ⟨p, hp, heq⟩
    rcases Prod.mk.inj heq with ⟨habove, heq⟩
    rcases Prod.mk.inj heq with ⟨hopened, hused⟩
    rcases Option.isSome_iff_exists.mp hopened with ⟨callee, hcallee⟩
    rcases hcallees p hp with ⟨start, hunder, -, hstarted⟩
    -- There is no call above the point, so it is one of the run itself.
    rw [List.length_eq_zero_iff.mp habove] at hunder
    cases hunder
    have hlimit := (hstarted callee hcallee).1
    rw [hused] at hlimit
    exact ⟨p, hp, callee, hcallee, hused, hlimit⟩

end ContractHost
