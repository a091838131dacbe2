import ContractHost.Proofs.Run.Dialogue
import ContractHost.Proofs.Small

/-!
# Errors End a Whole Run

An error that comes up anywhere in a run ends all of it. Within an operation the dialogue with the
host hands the error on as it is, and asks for nothing more. Within a script the operations behind
are not reached. And a call whose callee is refused is refused with the same error, so the script of
the call ends there as well, and so on up to the run of the entry point.

On the way up nothing is done but to release the calls in progress. What is on the chain, then, is
what was there when the error came up: memories, balances, contracts and meters. Nothing is taken
back, and nothing is added.

The operation at which a script ends is the last of its moments. In the list of points there is
nothing behind it but the points of the run that it has started itself.

## Main definitions

* `Dialogue.HandsOn`: A dialogue that ends with the first error it is answered.
* `Script.Moment.Fails`, `Script.Moment.Completes`: How an operation ends.
* `Script.Moment.Incurs`: An error comes up while an operation is performed.
* `Engine.Aborts`: An engine whose runs end with the errors that come up at their points.

## Theorems

* `Script.talk_handsOn`: No operation goes on after an error.
* `Script.Moment.Incurs.fails`: An operation fails with the errors that come up in it.
* `Script.moments_last`: A script ends where an operation fails.
* `Script.engineAt_aborts`: A run ends where an operation fails at any level.
* `Script.runOps_completes`: A script in which nothing fails has an output for every operation.
* `Host.run_aborts`: A run of an entry point.
-/

namespace ContractHost

/-! ## Errors in a dialogue -/

namespace Dialogue

variable {α β : Type}

/-- What follows an error is the end, with the same error. -/
def Relays (next : Metered β → Dialogue (Metered α)) : Prop :=
  ∀ e gas, ∃ used, next (.error e, gas) = done (.error e, used)

/-- The dialogue ends with the first error that it is answered. -/
def HandsOn : Dialogue (Metered α) → Prop
  | done _ => True
  | panic _ => True
  | look next => ∀ w, (next w).HandsOn
  | ask _ next => Relays next ∧ ∀ r, (next r).HandsOn
  | enter _ _ next => Relays next ∧ ∀ r, (next r).HandsOn

/-- An inquiry that is refused is the last thing that happens. -/
theorem HandsOn.refused {host : Host} {nested : Engine} {d : Dialogue (Metered α)}
    (h : d.HandsOn) {a : Asked} {e : HostError} {gas : Report} {w w' : World}
    (ha : a ∈ d.asked host nested w)
    (hrefused : host.answer a.inquiry a.world = (.ok (.error e, gas), w')) :
    ∃ used, d.held host nested w = (.ok (.error e, used), w') := by
  -- The induction is on the dialogue. The inquiry that is refused is the first one, or one made
  -- after an answer.
  induction d generalizing w with
  | done a => exact absurd ha List.not_mem_nil
  | panic p => exact absurd ha List.not_mem_nil
  | look next ih => exact ih w (h w) ha
  | ask q next ih =>
      rw [held, Action.bind_apply]
      rw [asked] at ha
      rcases List.mem_cons.mp ha with rfl | ha
      · rcases h.1 e gas with ⟨used, hnext⟩
        rw [hrefused]
        dsimp only
        rw [hnext]
        exact ⟨used, rfl⟩
      · -- The error comes up later, so this inquiry has been answered.
        rcases hanswer : host.answer q w with ⟨p | r, w''⟩
        · rw [hanswer] at ha
          exact absurd ha List.not_mem_nil
        · rw [hanswer] at ha
          exact ih r (h.2 r) ha
  | enter invocation call next ih =>
      rw [held, Action.bind_apply]
      rw [asked] at ha
      rcases hrun : World.guarding call (nested invocation call) w with ⟨p | r, w''⟩
      · rw [hrun] at ha
        exact absurd ha List.not_mem_nil
      · rw [hrun] at ha
        exact ih r (h.2 r) ha

end Dialogue

namespace Script

variable {α : Type}

theorem drained_handsOn (cursor : CursorId) {next : Metered (List Record) → Dialogue (Metered α)}
    (hrelays : Dialogue.Relays next) (hnext : ∀ r, (next r).HandsOn) (steps : Nat) (gas : Report) :
    (drained cursor steps gas next).HandsOn := by
  induction steps generalizing gas next with
  | zero => exact hnext _
  | succ steps ih =>
      refine ⟨fun e used => hrelays e _, fun r => ?_⟩
      rcases r with ⟨e | _ | e, used⟩
      · exact hnext _
      · exact hnext _
      · refine ih ?_ (fun _ => hnext _) _
        exact fun e used => hrelays e used

theorem resolving_handsOn (call : Handle) (request : ContractCall) (payGas : Report)
    {next : Metered ResolvedCall → Dialogue (Metered α)} (hrelays : Dialogue.Relays next)
    (hnext : ∀ r, (next r).HandsOn) : (resolving call request payGas next).HandsOn := by
  intro w
  dsimp only
  split
  · exact hnext _
  · exact ⟨fun e gas => hrelays e _, fun _ => hnext _⟩

theorem opening_handsOn (call : Handle) (request : ContractCall)
    {next : Metered ResolvedCall → Dialogue (Metered α)} (hrelays : Dialogue.Relays next)
    (hnext : ∀ r, (next r).HandsOn) : (opening call request next).HandsOn := by
  unfold opening paid
  split
  · exact resolving_handsOn call request _ hrelays hnext
  · refine ⟨fun e gas => hrelays e gas, fun r => ?_⟩
    rcases r with ⟨e | _, payGas⟩
    · exact hnext _
    · exact resolving_handsOn call request payGas hrelays hnext

/-- No operation goes on after an error. -/
theorem talk_handsOn (s : Setting) (used : Report) (op : Op) : (talk s used op).HandsOn := by
  cases op with
  | set key value => exact ⟨fun e gas => ⟨gas, rfl⟩, fun _ => trivial⟩
  | get key => exact ⟨fun e gas => ⟨gas, rfl⟩, fun _ => trivial⟩
  | delete key => exact ⟨fun e gas => ⟨gas, rfl⟩, fun _ => trivial⟩
  | scan start stop descending =>
      refine ⟨fun e gas => ⟨gas, rfl⟩, fun r => ?_⟩
      rcases r with ⟨e | cursor, gas⟩
      · trivial
      · intro w
        refine drained_handsOn cursor ?_ (fun _ => ?_) _ gas
        · exact fun e gas => ⟨gas, rfl⟩
        · trivial
  | call contract delegate funds ops =>
      intro w
      dsimp only
      split
      · trivial
      · refine opening_handsOn s.call _ (fun e gas => ⟨gas, rfl⟩) (fun r => ?_)
        rcases r with ⟨e | child, gas⟩
        · trivial
        · exact ⟨fun e used => ⟨gas + used, rfl⟩, fun _ => trivial⟩
  | query request gasLimit => exact ⟨fun e gas => ⟨gas, rfl⟩, fun _ => trivial⟩
  | canonicalize address => exact ⟨fun e gas => ⟨gas, rfl⟩, fun _ => trivial⟩
  | fail message => trivial
  | panic message => trivial

/-! ## Errors of an operation -/

/-- How the operation ends, with its own charge and the limit of its run looked at. -/
def Moment.stepped (m : Moment) : Except Panic (Metered Node) × World :=
  step m.setting m.used m.op m.world

/-- The operation ends with an error, in a world. -/
def Moment.Fails (m : Moment) (e : HostError) (w : World) : Prop :=
  ∃ gas, m.stepped = (.ok (.error e, gas), w)

/-- The operation ends with an output. -/
def Moment.Completes (m : Moment) (output : Node) : Prop :=
  ∃ gas w, m.stepped = (.ok (.ok output, gas), w)

/-- An error comes up while the operation is performed, and the world is `w` then. -/
inductive Moment.Incurs (m : Moment) : HostError → World → Prop
  /-- The host refuses an inquiry of the operation, be it for storage, an address, a query, coins or
      a callee. -/
  | refused {a : Asked} {e : HostError} {gas : Report} {w : World} : a ∈ m.asked →
      m.setting.host.answer a.inquiry a.world = (.ok (.error e, gas), w) → Incurs m e w
  /-- The run of the callee ends with the error. -/
  | nested {start : Start} {e : HostError} {gas : Report} {w : World} : m.opened = some start →
      m.setting.nested start.invocation start.call start.world = (.ok (.error e, gas), w) →
        Incurs m e w
  /-- The operation ends with the error, for one of these reasons or because the script asks for the
      failure or the run is over its limit. -/
  | ended {e : HostError} {w : World} : m.Fails e w → Incurs m e w

/-- An operation that is refused has nothing to charge for. -/
theorem Moment.fails_of_performed {m : Moment} {e : HostError} {gas : Report} {w : World}
    (h : m.performed = (.ok (.error e, gas), w)) : m.Fails e w := by
  refine ⟨m.used + gas, ?_⟩
  unfold stepped
  rw [step_apply]
  unfold performed at h
  rw [h]

/-- An operation fails with every error that comes up in it. At most the call of a callee is
    released in between. -/
theorem Moment.Incurs.fails {m : Moment} {e : HostError} {w : World} (h : m.Incurs e w) :
    ∃ w', m.Fails e w' ∧ w'.chain = w.chain := by
  cases h with
  -- The dialogue of the operation hands the error on, and the operation is its dialogue.
  | refused ha hrefused =>
      rcases (talk_handsOn m.setting m.used m.op).refused ha hrefused with ⟨used, hheld⟩
      rw [← perform_eq] at hheld
      exact ⟨w, fails_of_performed hheld, rfl⟩
  -- The call is released behind its run, which is no matter of the chain.
  | nested hopened hrun =>
      rcases performed_opened hopened with ⟨_, _, _, -, -, hperformed⟩
      rw [hrun] at hperformed
      exact ⟨_, fails_of_performed hperformed, rfl⟩
  | ended hfails => exact ⟨w, hfails, rfl⟩

/-! ## Errors of a script -/

section

variable {s : Setting} {used gas : Report} {ops : List Op} {w w' : World} {m : Moment}
  {e : HostError}

/-- A script ends where an operation fails, with the same error and in the same world. -/
theorem moments_last (hm : m ∈ moments s used ops w) (hfails : m.Fails e w') :
    ∃ earlier gas, moments s used ops w = earlier ++ [m] ∧
      runOps s used ops w = (.ok (.error e, gas), w') := by
  induction ops generalizing used w with
  | nil => exact absurd hm List.not_mem_nil
  | cons op ops ih =>
      rw [moments] at hm ⊢
      rw [runOps_cons_apply]
      rcases List.mem_cons.mp hm with rfl | hlater
      · rcases hfails with ⟨gas, hstep⟩
        unfold Moment.stepped at hstep
        rw [hstep]
        exact ⟨[], gas, rfl, rfl⟩
      · rcases hstep : step s used op w with ⟨p | ⟨e' | output, used'⟩, w₁⟩
        · rw [hstep] at hlater
          exact absurd hlater List.not_mem_nil
        · rw [hstep] at hlater
          exact absurd hlater List.not_mem_nil
        · rw [hstep] at hlater
          rcases ih hlater with ⟨earlier, gas, hmoments, hrun⟩
          dsimp only
          rw [hmoments, hrun]
          exact ⟨_ :: earlier, gas, rfl, rfl⟩

/-- A script in which nothing fails has an output for every operation. -/
theorem runOps_completes {r : Except HostError (List Node)}
    (hrun : runOps s used ops w = (.ok (r, gas), w'))
    (hnone : ∀ m ∈ moments s used ops w, ∀ e w₁, ¬ m.Fails e w₁) :
    ∃ outputs, r = .ok outputs ∧ List.Forall₂ (fun op output =>
      ∃ m ∈ moments s used ops w, m.op = op ∧ m.Completes output) ops outputs := by
  -- An operation that does not fail has an output, unless it panics, and then there is no result.
  induction ops generalizing used w r with
  | nil =>
      cases hrun
      exact ⟨[], rfl, .nil⟩
  | cons op ops ih =>
      rw [runOps_cons_apply] at hrun
      rw [moments] at hnone ⊢
      rcases hstep : step s used op w with ⟨p | ⟨e' | output, used'⟩, w₁⟩
      · rw [hstep] at hrun
        cases hrun
      · exact absurd ⟨used', hstep⟩ (hnone _ List.mem_cons_self e' w₁)
      · rw [hstep] at hrun hnone
        dsimp only at hrun hnone ⊢
        rcases hrest : runOps s used' ops w₁ with ⟨p | ⟨rest, used''⟩, w₂⟩
        · rw [hrest] at hrun
          cases hrun
        · rw [hrest] at hrun
          cases hrun
          rcases ih hrest (fun m hm => hnone m (List.mem_cons_of_mem _ hm)) with
            ⟨outputs, rfl, houtputs⟩
          refine ⟨output :: outputs, rfl, .cons ?_ (houtputs.imp ?_)⟩
          · exact ⟨_, List.mem_cons_self, rfl, used', w₁, hstep⟩
          · rintro op' output' ⟨m, hm, hcompletes⟩
            exact ⟨m, List.mem_cons_of_mem _ hm, hcompletes⟩

end

/-! ## Errors at any level -/

/-- The points of a run lie below the calls that the run lies below. -/
theorem above_of_mem_pointsAt (host : Host) (level : Nat) {above : List Moment} {start : Start} :
    ∀ p ∈ pointsAt host level above start, ∀ m ∈ above, m ∈ p.above := by
  induction level generalizing above start with
  | zero =>
      intro p hp m hm
      rcases mem_pointsOver_iff.mp hp with ⟨_, -, _, -, rfl | ⟨_, -, hinner⟩⟩
      · exact hm
      · exact absurd hinner List.not_mem_nil
  | succ level ih =>
      intro p hp m hm
      rcases mem_pointsOver_iff.mp hp with ⟨_, -, _, -, rfl | ⟨_, -, hinner⟩⟩
      · exact hm
      · exact ih p hinner m (List.mem_cons_of_mem _ hm)

end Script

/-- Where an operation fails at one of the points, the run ends with the same error and the same
    chain, and no point follows that does not lie below the operation. -/
def Engine.Aborts (engine : Engine)
    (points : List Script.Moment → Script.Start → List Script.Point) : Prop :=
  ∀ above start p e w, p ∈ points above start → p.now.Fails e w →
    (∃ gas w', engine start.invocation start.call start.world = (.ok (.error e, gas), w') ∧
      w'.chain = w.chain) ∧
    ∃ earlier inside, points above start = earlier ++ p :: inside ∧ ∀ q ∈ inside, p.now ∈ q.above

namespace Script

variable {host : Host}

/-- A run ends where an operation fails in it or below it, if the runs that it starts do. -/
theorem engineOver_aborts {nested : Engine} {below : List Moment → Start → List Point}
    (hnested : nested.Aborts below)
    (hbelow : ∀ above start, ∀ p ∈ below above start, ∀ m ∈ above, m ∈ p.above) :
    (engineOver host nested).Aborts (pointsOver host nested below) := by
  intro above start p e w hp hfails
  rcases mem_pointsOver_iff.mp hp with ⟨ops, hdecode, m, hm, hpoint⟩
  -- Whether the point is a moment of the script or lies below one, that moment fails.
  have hmoment : (∃ w', m.Fails e w' ∧ w'.chain = w.chain) ∧
      ∃ earlier inside, m.points below above = earlier ++ p :: inside ∧
        ∀ q ∈ inside, p.now ∈ q.above := by
    rcases hpoint with rfl | ⟨start', hopened, hinner⟩
    · refine ⟨⟨w, hfails, rfl⟩, [], m.inner below above, rfl, fun q hq => ?_⟩
      unfold Moment.inner at hq
      split at hq
      · exact hbelow _ _ q hq m List.mem_cons_self
      · exact absurd hq List.not_mem_nil
    · -- The run of the callee ends there, and the call that has started it fails with the same
      -- error.
      rcases hnested _ _ p e w hinner hfails with
        ⟨⟨gas, w', hrun, hchain⟩, earlier, inside, hpoints, hinside⟩
      rw [← show m.setting.nested = nested by rw [(moments_op m hm).1]] at hrun
      rcases (Moment.Incurs.nested hopened hrun).fails with ⟨w₁, hfails₁, hchain₁⟩
      refine ⟨⟨w₁, hfails₁, hchain₁.trans hchain⟩, ⟨m, above⟩ :: earlier, inside, ?_, hinside⟩
      unfold Moment.points Moment.inner
      rw [hopened]
      dsimp only
      rw [hpoints]
      rfl
  rcases hmoment with ⟨⟨w', hlast, hchain⟩, earlier, inside, hpoints, hinside⟩
  rcases moments_last hm hlast with ⟨before, gas, hmoments, hrun⟩
  constructor
  · rw [engineOver_apply, hdecode]
    dsimp only
    rw [hrun]
    exact ⟨gas, w', rfl, hchain⟩
  · -- The moment is the last one of the script, so its points are the last ones of the run.
    refine ⟨before.flatMap (Moment.points below above) ++ earlier, inside, ?_, hinside⟩
    unfold pointsOver
    rw [hdecode]
    dsimp only
    rw [hmoments, List.flatMap_append, List.flatMap_singleton, hpoints, List.append_assoc]

theorem refusal_aborts : refusal.Aborts fun _ _ => [] :=
  fun _ _ _ _ _ hp => absurd hp List.not_mem_nil

/-- A run ends where an operation fails at any level. -/
theorem engineAt_aborts (host : Host) (level : Nat) :
    (engineAt host level).Aborts (pointsAt host level) := by
  induction level with
  | zero =>
      exact engineOver_aborts refusal_aborts (fun _ _ p hp => absurd hp List.not_mem_nil)
  | succ level ih =>
      exact engineOver_aborts ih (fun _ _ => above_of_mem_pointsAt host level)

/-- A run in which nothing fails has an output for every operation of its own script. -/
theorem engineOver_completes {nested : Engine} {below : List Moment → Start → List Point}
    {above : List Moment} {start : Start} {ops : List Op} {r : Except HostError Bytes}
    {gas : Report} {w' : World} (hdecode : decode? start.invocation.msg = some ops)
    (hrun : engineOver host nested start.invocation start.call start.world = (.ok (r, gas), w'))
    (hnone : ∀ p ∈ pointsOver host nested below above start, ∀ e w, ¬ p.now.Fails e w) :
    ∃ outputs, r = .ok (Json.write (.list outputs)) ∧ List.Forall₂ (fun op output =>
      ∃ p ∈ pointsOver host nested below above start,
        p.above = above ∧ p.now.op = op ∧ p.now.Completes output) ops outputs := by
  -- The moments of the script are points of the run, right below the calls that the run lies below.
  have hpoint : ∀ m ∈ moments ⟨host, nested, start.invocation, start.call⟩ .free ops
      (noted start.invocation start.call start.world),
      ⟨m, above⟩ ∈ pointsOver host nested below above start :=
    fun m hm => mem_pointsOver_iff.mpr ⟨ops, hdecode, m, hm, .inl rfl⟩
  rw [engineOver_apply, hdecode] at hrun
  dsimp only at hrun
  rcases hscript : runOps ⟨host, nested, start.invocation, start.call⟩ .free ops
    (noted start.invocation start.call start.world) with ⟨p | ⟨result, used⟩, w₁⟩
  · rw [hscript] at hrun
    cases hrun
  · rw [hscript] at hrun
    cases hrun
    rcases runOps_completes hscript (fun m hm => hnone _ (hpoint m hm)) with
      ⟨outputs, rfl, houtputs⟩
    refine ⟨outputs, rfl, houtputs.imp ?_⟩
    rintro op output ⟨m, hm, hop, hcompletes⟩
    exact ⟨_, hpoint m hm, rfl, hop, hcompletes⟩

theorem engineAt_completes (level : Nat) {above : List Moment} {start : Start} {ops : List Op}
    {r : Except HostError Bytes} {gas : Report} {w' : World}
    (hdecode : decode? start.invocation.msg = some ops)
    (hrun : engineAt host level start.invocation start.call start.world = (.ok (r, gas), w'))
    (hnone : ∀ p ∈ pointsAt host level above start, ∀ e w, ¬ p.now.Fails e w) :
    ∃ outputs, r = .ok (Json.write (.list outputs)) ∧ List.Forall₂ (fun op output =>
      ∃ p ∈ pointsAt host level above start,
        p.above = above ∧ p.now.op = op ∧ p.now.Completes output) ops outputs := by
  cases level with
  | zero => exact engineOver_completes hdecode hrun hnone
  | succ level => exact engineOver_completes hdecode hrun hnone

end Script

namespace Host

/-- A run of an entry point ends with the first error that comes up in it, at whatever level that
    is: whatever the host refuses an operation, whatever a callee ends with, and whatever an
    operation fails with itself is what the run ends with. The chain is as it was when the error
    came up, and no operation has been reached behind the one that it came up in, except in the run
    of its own callee. If no error comes up, a script that comes to an end outputs what each of its
    operations does. -/
theorem run_aborts (host : Host) (binding : Binding) (request : Request) (w : World) :
    (∀ p ∈ host.points binding request w, ∀ e w₁, p.now.Incurs e w₁ →
      (∃ gas w', host.run (Script.engine host) binding request w = (.ok (.error e, gas), w') ∧
        w'.chain = w₁.chain) ∧
      ∃ earlier inside, host.points binding request w = earlier ++ p :: inside ∧
        ∀ q ∈ inside, p.now ∈ q.above) ∧
    ∀ ops result gas w', Script.decode? request.msg = some ops →
      host.run (Script.engine host) binding request w = (.ok (result, gas), w') →
      (∀ p ∈ host.points binding request w, ∀ e w₁, ¬ p.now.Incurs e w₁) →
      ∃ outputs, result = .ok (Json.write (.list outputs)) ∧ List.Forall₂ (fun op output =>
        ∃ p ∈ host.points binding request w,
          p.above = [] ∧ p.now.op = op ∧ p.now.Completes output) ops outputs := by
  rw [run_apply]
  refine ⟨fun p hp e w₁ hincurs => ?_, fun ops result gas w' hdecode hrun hnone => ?_⟩
  · -- The operation fails with the error, and the run ends where the operation fails.
    rcases hincurs.fails with ⟨w₂, hfails, hchain⟩
    rcases Script.engineAt_aborts host nestingLimit _ _ p e w₂ hp hfails with
      ⟨⟨gas, w', hrun, hchain'⟩, hpoints⟩
    refine ⟨⟨gas, w'.release (w.register binding).1, ?_, hchain'.trans hchain⟩, hpoints⟩
    have hengine : Script.engine host (host.topInvocation request) (w.register binding).1
      (w.register binding).2 = (.ok (.error e, gas), w') := hrun
    rw [hengine]
  · have hengine : (Script.engine host (host.topInvocation request) (w.register binding).1
        (w.register binding).2).1 = .ok (result, gas) := congrArg Prod.fst hrun
    exact Script.engineAt_completes nestingLimit hdecode (Prod.ext hengine rfl)
      (fun p hp e w₁ hfails => hnone p hp e w₁ (.ended hfails))

end Host

/-- A script that writes after a call whose callee fails. -/
def Host.Request.broken : Host.Request :=
  .executing [.call "b" false [] [.set "k" "v", .fail "stop"], .set "late" "x"] 100000

/-- The same script without the failure. -/
def Host.Request.whole : Host.Request :=
  .executing [.call "b" false [] [.set "k" "v"], .set "late" "x"] 100000

/-- What the operation fails with, if it asks for that. -/
def Op.failure? : Op → Option String
  | fail message => some message
  | _ => none

/-- The failure of the callee ends the run, on the chain that the callee has written to. The write
    behind the call is not reached. Without the failure the script has both of its outputs. -/
theorem Host.run_aborts_of_callee :
    (Host.small.points .small .broken .pair).map (fun p => p.now.op.failure?) =
        [none, none, some "stop"] ∧
      (∃ p ∈ Host.small.points .small .broken .pair, ∃ gas w',
        p.now.Incurs (.engine "stop") p.now.world ∧
        Host.small.run (Script.engine .small) .small .broken .pair =
          (.ok (.error (.engine "stop"), gas), w') ∧ w'.chain = p.now.world.chain) ∧
      ∃ outputs gas w', Host.small.run (Script.engine .small) .small .whole .pair =
        (.ok (.ok (Json.write (.list outputs)), gas), w') ∧ outputs.length = 2 := by
  have hops : (Host.small.points .small .broken .pair).map (fun p => p.now.op.failure?) =
      [none, none, some "stop"] := by decide +kernel
  refine ⟨hops, ?_, ?_⟩
  · have hmem : some "stop" ∈ (Host.small.points .small .broken .pair).map
        fun p => p.now.op.failure? := by
      rw [hops]
      decide
    rcases List.mem_map.mp hmem with ⟨p, hp, hfailure⟩
    have hperformed : p.now.performed = (.ok (.error (.engine "stop"), .free), p.now.world) := by
      unfold Script.Moment.performed
      cases hop : p.now.op with
      | fail message =>
          rw [hop] at hfailure
          cases hfailure
          rfl
      | _ =>
          rw [hop] at hfailure
          cases hfailure
    have hincurs : p.now.Incurs (.engine "stop") p.now.world :=
      .ended (Script.Moment.fails_of_performed hperformed)
    rcases (Host.run_aborts .small .small .broken .pair).1 p hp _ _ hincurs with
      ⟨⟨gas, w', hrun, hchain⟩, -⟩
    exact ⟨p, hp, gas, w', hincurs, hrun, hchain⟩
  · rcases Host.run_aborts .small .small .whole .pair with ⟨haborts, hcompletes⟩
    have hok : (Host.small.run (Script.engine .small) .small .whole .pair).1.toOption.map
        (fun r => r.1.isOk) = some true := by decide +kernel
    have htwo : (Script.decode? Host.Request.whole.msg).map List.length = some 2 := by
      decide +kernel
    rcases Option.map_eq_some_iff.mp htwo with ⟨ops, hdecode, hlength⟩
    rcases hrun : Host.small.run (Script.engine .small) .small .whole .pair with
      ⟨p | ⟨result, gas⟩, w'⟩
    · rw [hrun] at hok
      cases hok
    · -- An error would have ended the run.
      have hnone : ∀ p ∈ Host.small.points .small .whole .pair, ∀ e w₁, ¬ p.now.Incurs e w₁ := by
        intro p hp e w₁ hincurs
        rcases (haborts p hp e w₁ hincurs).1 with ⟨_, _, hfailed, -⟩
        rw [hfailed] at hok
        cases hok
      rcases hcompletes ops result gas w' hdecode hrun hnone with ⟨outputs, rfl, houtputs⟩
      exact ⟨outputs, gas, w', rfl, houtputs.length_eq.symm.trans hlength⟩

end ContractHost
