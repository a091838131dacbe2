import ContractHost.Proofs.Host.Nested
import ContractHost.Script.Engine

/-!
# The Moments of a Run

What happens during a run is a matter of the operations that are reached, at every level of
nested calls, and of the worlds in which they are. A `Moment` is an operation that is about
to be performed, together with the run it belongs to, the gas that the run has used before
it, and the world as it is then.

A moment decides everything that follows from it, since the operations are functions. It
decides whether a call gets so far that a further run starts, and where that run starts. So
the moments of all levels can be listed without any change to the engine: those of one
script one after another, and behind each call those of the run that it has started. The
list of points keeps for every moment the calls that it lies below.

The operations that are never reached, because one before them has failed, are no moments.

## Main definitions

* `Script.Moment`: An operation that is about to be performed.
* `Script.Moment.opened`: The run that a call starts, if it gets so far.
* `Script.moments`: The moments of one script.
* `Script.Point`: A moment with the calls that it lies below.
* `Script.pointsAt`, `Host.points`: The points of all levels.

## Theorems

* `Script.runOps_cons_apply`: The first operation of a script, and what comes after it.
* `Script.engineOver_apply`: A run is its script.
* `Script.engineOver_within`: A run moves along what its operations move along.
* `Script.perform_call_dead`, `Script.perform_call_live`: A call is a request to the host, if
  the call it is made by is live.
* `Script.opened_cases`: A run is started by a call that has been opened.
* `Script.Moment.performed_call`, `Script.Moment.performed_opened`: A call ends as the run that
  it starts.
-/

namespace ContractHost

namespace Script

/-- An operation that is about to be performed. -/
structure Moment where
  setting : Setting
  /-- The gas that the run has used before it. -/
  used : Report
  op : Op
  world : World

/-- The world in which the start of a run has been noted. -/
def noted (invocation : Invocation) (call : Handle) (w : World) : World :=
  (noteRun invocation call w).2

/-- The start of a run of an engine. -/
structure Start where
  invocation : Invocation
  call : Handle
  world : World

end Script

/-- The run that a nested call starts, if the call can be opened. -/
def Host.started? (host : Host) (call : Handle) (request : ContractCall) (w : World) :
    Option Script.Start :=
  match host.openCall call request w with
  | (.ok (.ok child, _), w) =>
    some ⟨host.nestedInvocation request child.checksum, child.call, w⟩
  | _ => none

namespace Script

/-- What the operation does. -/
def Moment.performed (m : Moment) : Except Panic (Metered Node) × World :=
  perform m.setting m.used m.op m.world

/-- What a call asks the host for, if the call it is made by is live. -/
def Moment.request? (m : Moment) : Option ContractCall :=
  match m.op, m.world.registry.lookup m.setting.call with
  | .call contract delegate funds ops, .ok ctx =>
    some (nestedCall m.setting m.used ctx contract delegate funds ops)
  | _, _ => none

/-- The run that a call starts, if it gets so far. -/
def Moment.opened (m : Moment) : Option Start :=
  m.request?.bind fun request => m.setting.host.started? m.setting.call request m.world

/-- The moments of one script, up to the first operation that fails. -/
def moments (s : Setting) : (used : Report) → List Op → World → List Moment
  | _, [], _ => []
  | used, op :: ops, w =>
    ⟨s, used, op, w⟩ :: match step s used op w with
      | (.ok (.ok _, used), w) => moments s used ops w
      | _ => []

/-- A moment with the calls that it lies below. -/
structure Point where
  now : Moment
  /-- The calls that the moment lies below, the innermost first. -/
  above : List Moment

/-- The points of the run that a moment starts. -/
def Moment.inner (below : List Moment → Start → List Point) (above : List Moment) (m : Moment) :
    List Point :=
  match m.opened with
  | some start => below (m :: above) start
  | none => []

/-- A moment and, behind it, the points of the run that it starts. -/
def Moment.points (below : List Moment → Start → List Point) (above : List Moment) (m : Moment) :
    List Point :=
  ⟨m, above⟩ :: m.inner below above

/-- The points of a run whose nested calls run on `nested`; `below` are the points of those. -/
def pointsOver (host : Host) (nested : Engine) (below : List Moment → Start → List Point)
    (above : List Moment) (start : Start) : List Point :=
  match decode? start.invocation.msg with
  | none => []
  | some ops =>
    (moments ⟨host, nested, start.invocation, start.call⟩ .free ops
      (noted start.invocation start.call start.world)).flatMap (Moment.points below above)

/-- The points of a run with `level` levels of nested calls below it. -/
def pointsAt (host : Host) : (level : Nat) → (above : List Moment) → Start → List Point
  | 0 => pointsOver host refusal fun _ _ => []
  | level + 1 => pointsOver host (engineAt host level) (pointsAt host level)

/-- A point of a run is a moment of its script, or a point of a run that such a moment starts. -/
theorem mem_pointsOver_iff {host : Host} {nested : Engine}
    {below : List Moment → Start → List Point} {above : List Moment} {start : Start} {p : Point} :
    p ∈ pointsOver host nested below above start ↔
      ∃ ops, decode? start.invocation.msg = some ops ∧
        ∃ m ∈ moments ⟨host, nested, start.invocation, start.call⟩ .free ops
            (noted start.invocation start.call start.world),
          p = ⟨m, above⟩ ∨ ∃ start', m.opened = some start' ∧ p ∈ below (m :: above) start' := by
  unfold pointsOver
  cases hdecode : decode? start.invocation.msg with
  | none => simp only [List.not_mem_nil, reduceCtorEq, false_and, exists_false]
  | some ops =>
      -- Either the point is the moment itself, or it belongs to the run that the moment starts.
      have hpoints (m : Moment) : p ∈ m.points below above ↔
          p = ⟨m, above⟩ ∨ ∃ start', m.opened = some start' ∧ p ∈ below (m :: above) start' := by
        unfold Moment.points Moment.inner
        rw [List.mem_cons]
        cases m.opened with
        | none => simp only [List.not_mem_nil, reduceCtorEq, false_and, exists_false]
        | some start' => simp only [Option.some.injEq, exists_eq_left']
      simp only [List.mem_flatMap, hpoints, Option.some.injEq, exists_eq_left']

/-- All moments of a script are moments of its operations. -/
theorem moments_op {s : Setting} {used : Report} {ops : List Op} {w : World} :
    ∀ m ∈ moments s used ops w, m.setting = s ∧ m.op ∈ ops := by
  induction ops generalizing used w with
  | nil => exact fun m hm => absurd hm List.not_mem_nil
  | cons op ops ih =>
      intro m hm
      rw [moments] at hm
      rcases List.mem_cons.mp hm with rfl | hlater
      · exact ⟨rfl, List.mem_cons_self⟩
      · split at hlater
        · rcases ih m hlater with ⟨hsetting, hop⟩
          exact ⟨hsetting, List.mem_cons_of_mem op hop⟩
        · exact absurd hlater List.not_mem_nil

/-! ## The engine step by step -/

/-- An operation is charged for when it has ended well, and the sum of the gas is compared with the
    limit only then. -/
theorem step_apply (s : Setting) (used : Report) (op : Op) (w : World) :
    step s used op w = match perform s used op w with
      | (.error p, w') => (.error p, w')
      | (.ok (.error e, gas), w') => (.ok (.error e, used + gas), w')
      | (.ok (.ok output, gas), w') =>
        let used := used + gas + Report.ofCost opCost
        (.ok (if s.invocation.gasLimit < used.total then
          (.error (.outOfGas s.invocation.gasLimit used.total), used)
        else (.ok output, used)), w') := by
  unfold step
  -- Panics and errors of the operation go past the charge, and only an output meets the limit.
  rw [Action.bind_apply]
  rcases perform s used op w with ⟨p | ⟨e | output, gas⟩, w'⟩
  · rfl
  · rfl
  · dsimp only
    split
    · rfl
    · rfl

/-- The rest of a script runs where its first operation has ended well, on the gas used so far. -/
theorem runOps_cons_apply (s : Setting) (used : Report) (op : Op) (ops : List Op) (w : World) :
    runOps s used (op :: ops) w = match step s used op w with
      | (.error p, w') => (.error p, w')
      | (.ok (.error e, used), w') => (.ok (.error e, used), w')
      | (.ok (.ok output, used), w') =>
        match runOps s used ops w' with
        | (.error p, w'') => (.error p, w'')
        | (.ok (rest, used), w'') => (.ok (rest.map (output :: ·), used), w'') := by
  rw [runOps, Action.bind_apply]
  rcases step s used op w with ⟨p | ⟨e | output, used⟩, w'⟩
  · rfl
  · rfl
  · dsimp only
    rw [Action.bind_apply]
    rcases runOps s used ops w' with ⟨p | ⟨rest, used⟩, w''⟩
    · rfl
    · rfl

theorem noteRun_apply (invocation : Invocation) (call : Handle) (w : World) :
    noteRun invocation call w = (.ok ⟨⟩, noted invocation call w) := rfl

/-- A run is its script, in the world in which the run has been noted. -/
theorem engineOver_apply (host : Host) (nested : Engine) (invocation : Invocation)
    (call : Handle) (w : World) :
    engineOver host nested invocation call w = match decode? invocation.msg with
      | none => (.ok (.error malformed, .free), noted invocation call w)
      | some ops =>
        match runOps ⟨host, nested, invocation, call⟩ .free ops (noted invocation call w) with
        | (.error p, w') => (.error p, w')
        | (.ok (r, used), w') =>
          (.ok (r.map fun outputs => Json.write (.list outputs), used), w') := by
  unfold engineOver
  rw [Action.bind_apply, noteRun_apply]
  dsimp only
  cases decode? invocation.msg with
  | none => rfl
  | some ops =>
      dsimp only
      rw [Action.bind_apply]
      rcases runOps ⟨host, nested, invocation, call⟩ .free ops (noted invocation call w) with
        ⟨p | ⟨r, used⟩, w'⟩
      · rfl
      · rfl

section

variable {R : World → World → Prop} (hR : Steady R)

include hR

/-- An operation with its charge moves along what the operation does. -/
theorem step_within {s : Setting} {used : Report} {op : Op}
    (hperform : (perform s used op).Within R) : (step s used op).Within R := by
  refine .bind hR hperform (fun r => ?_)
  rcases r with ⟨e | output, gas⟩
  · exact .pure hR _
  · dsimp only
    -- Whether the run is over its limit changes the result and not the world.
    split
    · exact .pure hR _
    · exact .pure hR _

theorem runOps_within {s : Setting} (hperform : ∀ used op, (perform s used op).Within R)
    (used : Report) (ops : List Op) : (runOps s used ops).Within R := by
  induction ops generalizing used with
  | nil => exact .pure hR _
  | cons op ops ih =>
      refine .bind hR (step_within hR (hperform used op)) (fun r => ?_)
      rcases r with ⟨e | output, gas⟩
      · exact .pure hR _
      · exact .bind hR (ih gas) (fun _ => .pure hR _)

/-- A run moves along what its note and all of its operations move along. -/
theorem engineOver_within {host : Host} {nested : Engine} {invocation : Invocation}
    {call : Handle} (hnote : ∀ w, R w (noted invocation call w))
    (hperform : ∀ used op, (perform ⟨host, nested, invocation, call⟩ used op).Within R) :
    (engineOver host nested invocation call).Within R := by
  -- The note comes first, and a message that is no script is refused after it.
  refine .bind hR hnote (fun _ => ?_)
  cases decode? invocation.msg with
  | none => exact .pure hR _
  | some ops => exact .bind hR (runOps_within hR hperform .free ops) (fun _ => .pure hR _)

end

/-- A call is not opened by one that is not live. -/
theorem perform_call_dead {s : Setting} {used : Report} {contract : String} {delegate : Bool}
    {funds : List Coin} {ops : List Op} {w : World} {e : HostError}
    (hdead : w.registry.lookup s.call = .error e) :
    perform s used (.call contract delegate funds ops) w = (.ok (.error e, .free), w) := by
  rw [perform, Action.bind_apply, Action.get_apply]
  dsimp only
  rw [hdead]
  rfl

/-- A call is a request to the host with the contract and the coins of the operation. -/
theorem perform_call_live {s : Setting} {used : Report} {contract : String} {delegate : Bool}
    {funds : List Coin} {ops : List Op} {w : World} {ctx : Context}
    (hlive : w.registry.lookup s.call = .ok ctx) :
    perform s used (.call contract delegate funds ops) w =
      match s.host.callContract s.nested s.call
        (nestedCall s used ctx contract delegate funds ops) w with
      | (.error p, w') => (.error p, w')
      | (.ok (r, gas), w') => (.ok (r.bind nestedOutput, gas), w') := by
  rw [perform, Action.bind_apply, Action.get_apply]
  dsimp only
  rw [hlive]
  dsimp only
  rw [Action.bind_apply]
  rcases s.host.callContract s.nested s.call (nestedCall s used ctx contract delegate funds ops) w
    with ⟨p | ⟨r, gas⟩, w'⟩
  · rfl
  · rfl

/-- A run is started by a call that has been opened, and by nothing else. It is handed the script
    of the call. -/
theorem opened_cases {m : Moment} {start : Start} (h : m.opened = some start) :
    ∃ contract delegate funds ops request child gas,
      m.op = .call contract delegate funds ops ∧
      request.contract = contract ∧ request.delegate = delegate ∧
      m.setting.host.openCall m.setting.call request m.world =
        (.ok (.ok child, gas), start.world) ∧
      start.call = child.call ∧ start.invocation.msg = encode ops := by
  rcases m with ⟨s, used, op, w⟩
  unfold Moment.opened at h
  rcases Option.bind_eq_some_iff.mp h with ⟨request, hrequest, hstarted⟩
  unfold Moment.request? at hrequest
  dsimp only at hrequest hstarted
  -- Only a call of a live run asks for a callee.
  split at hrequest
  · next contract delegate funds ops ctx _ =>
    cases hrequest
    unfold Host.started? at hstarted
    split at hstarted
    · next child gas w' hopen =>
      cases hstarted
      exact ⟨contract, delegate, funds, ops, _, child, gas, rfl, rfl, rfl, hopen, rfl, rfl⟩
    · cases hstarted
  · cases hrequest

/-- A call ends as the run that it starts, with the output read, unless it does not get so far. -/
theorem Moment.performed_call {s : Setting} {used : Report} {contract : String} {delegate : Bool}
    {funds : List Coin} {ops : List Op} {w w' : World} {r : Except HostError Node} {gas : Report}
    (h : perform s used (.call contract delegate funds ops) w = (.ok (r, gas), w')) :
    (∃ e, r = .error e ∧ w.registry.lookup s.call = .error e) ∨
      (∃ e ctx gas' w₁, r = .error e ∧ w.registry.lookup s.call = .ok ctx ∧
        s.host.openCall s.call (nestedCall s used ctx contract delegate funds ops) w =
          (.ok (.error e, gas'), w₁)) ∨
      ∃ start output gas' w₁,
        Moment.opened ⟨s, used, .call contract delegate funds ops, w⟩ = some start ∧
        s.nested start.invocation start.call start.world = (.ok (output, gas'), w₁) ∧
        r = output.bind nestedOutput := by
  cases hlookup : w.registry.lookup s.call with
  | error e =>
      rw [perform_call_dead hlookup] at h
      cases h
      exact .inl ⟨e, rfl, rfl⟩
  | ok ctx =>
      right
      rw [perform_call_live hlookup] at h
      rcases hcall : s.host.callContract s.nested s.call
        (nestedCall s used ctx contract delegate funds ops) w with ⟨p | ⟨output, gas'⟩, w₁⟩
      · rw [hcall] at h
        cases h
      · rw [hcall] at h
        cases h
        -- The host has refused to open the call, or the callee has run.
        rcases Host.callContract_ended hcall with ⟨e, used', w₂, rfl, hopen⟩ |
          ⟨child, used', w₂, used'', w₃, hopen, hrun⟩
        · exact .inl ⟨e, ctx, used', w₂, rfl, rfl, hopen⟩
        · refine .inr ⟨⟨_, child.call, w₂⟩, output, used'', w₃, ?_, hrun, rfl⟩
          unfold Moment.opened Moment.request? Host.started?
          dsimp only
          rw [hlookup]
          dsimp only [Option.bind_some]
          rw [hopen]
          rfl

/-- A call that has started a run ends as that run does, with the output read. What the run may
    use is what the run of the call has left. -/
theorem Moment.performed_opened {m : Moment} {start : Start} (h : m.opened = some start) :
    ∃ request child gas,
      m.setting.host.openCall m.setting.call request m.world =
        (.ok (.ok child, gas), start.world) ∧
      start.invocation.gasLimit = Word.sub m.setting.invocation.gasLimit m.used.total ∧
      m.performed =
        match m.setting.nested start.invocation start.call start.world with
        | (.error p, w) => (.error p, w.release start.call)
        | (.ok (r, used), w) => (.ok (r.bind nestedOutput, gas + used), w.release start.call) := by
  rcases m with ⟨s, used, op, w⟩
  unfold Moment.opened at h
  rcases Option.bind_eq_some_iff.mp h with ⟨request, hrequest, hstarted⟩
  unfold Moment.request? at hrequest
  dsimp only at hrequest hstarted
  split at hrequest
  · next contract delegate funds ops ctx hlive =>
    cases hrequest
    unfold Host.started? at hstarted
    split at hstarted
    · next child gas w' hopen =>
      cases hstarted
      -- The operation is the call, which looks up the context again and finds the same one.
      refine ⟨_, child, gas, hopen, rfl, ?_⟩
      unfold Moment.performed
      dsimp only
      rw [perform_call_live hlive, Host.callContract_apply, hopen]
      dsimp only
      rcases s.nested (s.host.nestedInvocation _ child.checksum) child.call w' with
        ⟨p | ⟨r, used'⟩, w''⟩
      · rfl
      · rfl
    · cases hstarted
  · cases hrequest

/-- A call that is not opened has no points below it. -/
theorem Moment.inner_dead (below : List Moment → Start → List Point) (above : List Moment)
    {s : Setting} {used : Report} {contract : String} {delegate : Bool} {funds : List Coin}
    {ops : List Op} {w : World} {e : HostError} (hdead : w.registry.lookup s.call = .error e) :
    Moment.inner below above ⟨s, used, .call contract delegate funds ops, w⟩ = [] := by
  unfold Moment.inner Moment.opened Moment.request?
  dsimp only
  rw [hdead]
  rfl

/-- The points below a call are those of the run that its request starts. -/
theorem Moment.inner_live (below : List Moment → Start → List Point) (above : List Moment)
    {s : Setting} {used : Report} {contract : String} {delegate : Bool} {funds : List Coin}
    {ops : List Op} {w : World} {ctx : Context} (hlive : w.registry.lookup s.call = .ok ctx) :
    Moment.inner below above ⟨s, used, .call contract delegate funds ops, w⟩ =
      (s.host.started? s.call (nestedCall s used ctx contract delegate funds ops) w).elim []
        (below (⟨s, used, .call contract delegate funds ops, w⟩ :: above)) := by
  unfold Moment.inner Moment.opened Moment.request?
  dsimp only
  rw [hlive]
  dsimp only [Option.bind_some]
  cases s.host.started? s.call (nestedCall s used ctx contract delegate funds ops) w with
  | none => rfl
  | some start => rfl

end Script

/-- The points of a run of an entry point. -/
def Host.points (host : Host) (binding : Binding) (request : Host.Request) (w : World) :
    List Script.Point :=
  Script.pointsAt host nestingLimit []
    ⟨host.topInvocation request, (w.register binding).1, (w.register binding).2⟩

end ContractHost
