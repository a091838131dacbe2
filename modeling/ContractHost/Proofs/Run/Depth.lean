import ContractHost.Proofs.Host.Resolution
import ContractHost.Proofs.Run.Dialogue
import ContractHost.Proofs.Run.Release

/-!
# Depths of Runs

A run of the script engine is nothing but steps of the host: inquiries, releases, and the notes
of the runs that are started. So whatever every step keeps is kept by a run, and by a run of an
entry point, which registers one call more and releases it. The bound on the depth is such a
thing. It is looked at in one place only, when a nested call is resolved, and no script can get
around it.

## Main definitions

* `Engine.Steps`: An engine that does nothing but steps of the host.

## Theorems

* `Script.perform_steps`: An operation is steps of the host.
* `Host.run_steps`, `Host.callContract_steps`: So are a run and a nested call.
* `Host.resolution_is_bounded`: Resolution is all or nothing, and bounds the depth.
-/

namespace ContractHost

/-- An engine that does nothing but steps of the host. -/
def Engine.Steps (host : Host) (engine : Engine) : Prop :=
  ∀ invocation call, (engine invocation call).Within (Relation.ReflTransGen host.Step)

namespace Host

variable {host : Host}

theorem steady_steps (host : Host) : Steady (Relation.ReflTransGen host.Step) where
  refl _ := .refl
  trans := .trans

theorem guarding_steps {engine : Engine} (hengine : engine.Steps host) (invocation : Invocation)
    (call : Handle) :
    (World.guarding call (engine invocation call)).Within (Relation.ReflTransGen host.Step) :=
  fun w => (hengine invocation call w).tail (.release call _)

end Host

/-- Every dialogue with the host is steps of the host, if the engine that it lets run is. -/
theorem Dialogue.steps {α : Type} {host : Host} {nested : Engine} (hnested : nested.Steps host)
    (d : Dialogue α) : (d.held host nested).Within (Relation.ReflTransGen host.Step) :=
  d.within (Host.steady_steps host) (fun q w => .single (.answer q w))
    (Host.guarding_steps hnested)

namespace Script

variable {host : Host}

/-- An operation is a dialogue with the host, so it is steps. -/
theorem perform_steps (s : Setting) (hnested : s.nested.Steps s.host) (used : Report) (op : Op) :
    (perform s used op).Within (Relation.ReflTransGen s.host.Step) := by
  rw [perform_eq]
  exact Dialogue.steps hnested _

theorem engineOver_steps {nested : Engine} (hnested : nested.Steps host) :
    (engineOver host nested).Steps host :=
  fun invocation call => engineOver_within (Host.steady_steps host)
    (fun w => .single (.note invocation call w))
    (perform_steps ⟨host, nested, invocation, call⟩ hnested)

theorem refusal_steps : refusal.Steps host := fun _ _ => .pure (Host.steady_steps host) _

theorem engineAt_steps (host : Host) (level : Nat) : (engineAt host level).Steps host := by
  induction level with
  | zero => exact engineOver_steps refusal_steps
  | succ level ih => exact engineOver_steps ih

end Script

namespace Host

variable {host : Host}

/-- A nested call is opened in a dialogue, and then its engine runs. -/
theorem callContract_steps {engine : Engine} (hengine : engine.Steps host) (call : Handle)
    (request : ContractCall) :
    (host.callContract engine call request).Within (Relation.ReflTransGen host.Step) := by
  have hopen : (Script.opening call request .done).held host engine =
      host.openCall call request := by
    rw [Script.held_opening]
    exact bind_pure _
  -- Opening the call is a dialogue that nothing follows.
  refine .bind (steady_steps host) ?_ (fun opened => ?_)
  · rw [← hopen]
    exact Dialogue.steps hengine _
  · rcases opened with ⟨e | child, gas⟩
    · exact .pure (steady_steps host) _
    · exact .bind (steady_steps host) (guarding_steps hengine _ _)
        (fun _ => .pure (steady_steps host) _)

/-- A run of an entry point is a registration, a run of the engine and a release. -/
theorem run_steps {engine : Engine} (hengine : engine.Steps host) (binding : Binding)
    (request : Request) :
    (host.run engine binding request).Within (Relation.ReflTransGen host.Step) := by
  intro w
  rw [run_apply]
  -- A registration, what the engine does, and a release.
  exact .tail (.trans (.single (.register binding w)) (hengine _ _ _)) (.release _ _)

/-- In a world that comes about by steps of the host, resolving a nested call either leaves the
    registry as it is or makes one call more live, below the call that asks, and which of the two
    it does is decided by that call, by the capability and by the length of the code identifier.
    No live call lies deeper than the host allows, and no engine has run deeper. Runs of scripts
    and nested calls of scripts lead to such worlds again.

    `hroom` leaves a free handle for a call that is resolved. A depth is the greatest one that
    there is if there is none below it; there is one unless there have been as many registrations
    as there are depths. -/
theorem resolution_is_bounded {w : World} (hreached : host.Reached w) :
    (∀ call contract store x w', w.registry.size < Word.top →
      host.resolveCall call contract store w = (x, w') →
        ((∀ child gas, x ≠ .ok (.ok child, gas)) → w'.registry = w.registry) ∧
        ((∃ child gas, x = .ok (.ok child, gas)) ↔
          ∃ parent found c, w.registry.lookup call = .ok parent ∧
            ¬ host.maxDepth < parent.childDepth ∧
            host.capabilities.resolveCall parent contract store w.chain = (.ok (.ok found), c) ∧
            found.code.length = Checksum.size) ∧
        ∀ child gas, x = .ok (.ok child, gas) → ∃ parent depth,
          host.Resolved call contract store parent depth child w w' ∧
          depth = min (parent.depth.toNat + 1) (UInt32.size - 1) ∧
          (w.registry.issued < UInt32.size →
            depth = parent.depth.toNat + 1 ∧ parent.depth < host.maxDepth)) ∧
      (∀ call ctx, w.registry.lookup call = .ok ctx → ctx.depth ≤ host.maxDepth) ∧
      (∀ run ∈ w.runs, run.depth ≤ host.maxDepth) ∧
      (∀ binding request, host.Reached (host.run (Script.engine host) binding request w).2 ∧
        ∀ run ∈ (host.run (Script.engine host) binding request w).2.runs,
          run.depth ≤ host.maxDepth) ∧
      ∀ call request,
        host.Reached (host.callContract (Script.engine host) call request w).2 := by
  have hw := hreached.withinDepth
  refine ⟨fun call contract store x w' hroom h => ⟨fun hnone => ?_, ?_, fun child gas hx => ?_⟩,
    fun call ctx hlive => ?_, hw.runs_le, fun binding request => ?_, fun call request => ?_⟩
  · rcases resolveCall_cases h with ⟨hsame, -⟩ | ⟨_, found, c, checksum, gas, -, -, -, -, hx, -⟩
    · exact hsame
    · exact absurd hx (hnone _ gas)
  · have hiff := resolveCall_ok_iff host call contract store w
    rw [h] at hiff
    exact hiff
  · rw [hx] at h
    rcases resolveCall_resolved hw.registry.reached.consistent hroom h with ⟨parent, hresolved⟩
    refine ⟨parent, _, hresolved, rfl, fun hissued => ?_⟩
    -- No call lies as deep as there have been registrations, so there is a depth below the parent.
    have hlt := hw.registry.live_lt _ _ (Registry.lookup_eq_ok_iff.mp hresolved.live)
    have hle := UInt32.le_iff_toNat_le.mp (UInt32.not_lt.mp hresolved.allowed)
    rw [Context.toNat_childDepth] at hle
    refine ⟨by omega, UInt32.lt_iff_toNat_lt.mpr (by omega)⟩
  · exact hw.registry.live_le call ctx (Registry.lookup_eq_ok_iff.mp hlive)
  · have hrun := hreached.steps
      (run_steps (Script.engineAt_steps host nestingLimit) binding request w)
    exact ⟨hrun, hrun.withinDepth.runs_le⟩
  · exact hreached.steps
      (callContract_steps (Script.engineAt_steps host nestingLimit) call request w)

end Host

/-- A script of which every level calls the contract again, and goes deeper than is allowed. -/
def Host.Request.descending : Host.Request :=
  .executing [.call "a" false [] [.call "a" false [] [.call "a" false [] []]]] 100000

/-- The same host, which allows two levels of nested calls. -/
def Host.shallow : Host := { Host.small with maxDepth := 2 }

/-- The runs above the bound are noted, and the one below it is not. -/
theorem Host.resolution_is_bounded_of_descent :
    (Host.shallow.run (Script.engine .shallow) .small .descending .small).2.runs.map
        EngineRun.depth = [0, 1, 2] ∧
      ∀ run ∈ (Host.shallow.run (Script.engine .shallow) .small .descending .small).2.runs,
        run.depth ≤ 2 := by
  have hreached : Host.shallow.Reached .small := ⟨_, rfl, rfl, .single (.register .small _)⟩
  rcases Host.resolution_is_bounded hreached with ⟨-, -, -, hrun, -⟩
  exact ⟨by decide +kernel, (hrun .small .descending).2⟩

end ContractHost
