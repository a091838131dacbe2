import ContractHost.Proofs.Host.Nested
import ContractHost.Proofs.Registry.Restoration
import ContractHost.Proofs.Run.Moments
import ContractHost.Proofs.Small

/-!
# Runs Give Their Handles Back

A run takes one handle for its call and one for every call nested in it, and gives all of
them back: when it succeeds, when an operation or a capability refuses, and when something
panics at any depth. Afterwards the same calls are live as before, each with its context,
and every one of them counts as many live children as before. Only the counters of the
registry have moved.

The relation that every step moves along is `World.Restored`. It asks for a consistent
registry and for room, and gives both back, so steps can be put in a row. Requests that do
not register a call leave the registry as it is and move along it for nothing. A nested
call needs room for one call more than its engine does, because the call of the callee is
live while the engine works. Levels of engines add up to the room that a run needs.

Nothing is assumed about the capabilities of the host.

## Main definitions

* `World.Restored`: The live calls and the counts come back.
* `Engine.Restores`: An engine after which they come back.

## Theorems

* `World.Restored.release`: The release of a call closes what its registration opened.
* `Host.callContract_restored`: A nested call gives its handle back.
* `Script.perform_calm`: The operations that are no calls leave the registry alone.
* `Script.engineAt_restores`: Every level of the engine gives its handles back.
* `Host.run_restores_registry`: A run changes nothing but counters.
-/

namespace ContractHost

namespace World

/-- With a consistent registry and room for `n` more calls, the live calls and the counts
    come back, and the registry is consistent again. -/
def Restored (n : Nat) (w w' : World) : Prop :=
  w.registry.Consistent → w.registry.size + n < Word.top →
    w'.registry.Consistent ∧ w.registry.Settled w'.registry

/-- What comes back in two stretches in a row comes back in both together. -/
theorem steady_restored (n : Nat) : Steady (Restored n) where
  refl w := fun hw _ => ⟨hw, Registry.steady_settled.refl w.registry⟩
  trans := by
    intro w₁ w₂ w₃ h h' hw hroom
    rcases h hw hroom with ⟨hw₂, hsettled⟩
    rcases h' hw₂ (by rw [hsettled.size]; exact hroom) with ⟨hw₃, hsettled'⟩
    exact ⟨hw₃, Registry.steady_settled.trans hsettled hsettled'⟩

theorem restored_of_eq {n : Nat} {w w' : World} (h : w'.registry = w.registry) :
    Restored n w w' := by
  intro hw _
  rw [h]
  exact ⟨hw, Registry.steady_settled.refl w.registry⟩

theorem Calm.restored {Q : Chain → Chain → Prop} {n : Nat} {w w' : World} (h : Calm Q w w') :
    Restored n w w' := restored_of_eq h.registry

/-- The release of a call closes what its registration opened, if the live calls and the
    counts come back in between. -/
theorem Restored.release {n : Nat} {w w₁ w₂ : World} {b : Binding} {parent : Option Handle}
    {depth : UInt32} (hopened : w₁.registry = (w.registry.insert b parent depth).2)
    (h : Restored n w₁ w₂) :
    Restored (n + 1) w (w₂.release (w.registry.insert b parent depth).1) := by
  intro hw hroom
  have hfree : w.registry.size < Word.top := by omega
  -- The new call has taken one of the free places, and `n` are left for the calls below it.
  have hsize : w₁.registry.size = w.registry.size + 1 := by
    rw [hopened, Registry.size_insert w.registry hw hfree]
  have hw₁ : w₁.registry.Consistent := by
    rw [hopened]
    exact hw.insert b parent depth
  rcases h hw₁ (by omega) with ⟨hw₂, hsettled⟩
  rw [hopened] at hsettled
  exact ⟨hw₂.release _, Registry.release_insert hw hfree b parent depth hsettled⟩

end World

/-- An engine after which the live calls and the counts come back, if there is room for
    `n` more calls. -/
def Engine.Restores (n : Nat) (engine : Engine) : Prop :=
  ∀ invocation call, (engine invocation call).Within (World.Restored n)

namespace Host

/-- A nested call gives its handle back, and there must be room for one call more than its run
    needs. -/
theorem callContract_restored {n : Nat} {engine : Engine} (hengine : engine.Restores n)
    (host : Host) (call : Handle) (request : ContractCall) :
    (host.callContract engine call request).Within (World.Restored (n + 1)) := by
  intro w
  rw [callContract_apply]
  rcases hopen : host.openCall call request w with ⟨x, w₁⟩
  rcases openCall_registers hopen with ⟨hsame, hnone⟩ |
      ⟨ctx, found, store, c, c', checksum, gas, -, -, rfl, hopened⟩
  · rcases x with p | ⟨e | child, gas⟩
    · exact World.restored_of_eq hsame
    · exact World.restored_of_eq hsame
    · exact absurd rfl (hnone child gas)
  · -- The release follows whether the engine comes to an end or panics.
    have hrun := hengine (nestedInvocation host request checksum)
      (w.registry.registerChild ctx found.binding).1 w₁
    dsimp only
    rcases hresult : engine (nestedInvocation host request checksum)
      (w.registry.registerChild ctx found.binding).1 w₁ with ⟨p | ⟨r, used⟩, w₂⟩
    · rw [hresult] at hrun
      exact World.Restored.release hopened hrun
    · rw [hresult] at hrun
      exact World.Restored.release hopened hrun

end Host

namespace Script

variable {Q : Chain → Chain → Prop} (hQ : Chain.Harmless Q)

include hQ

theorem drain_calm (host : Host) (cursor : CursorId) (steps : Nat) (gas : Report) :
    (drain host cursor steps gas).Within (World.Calm Q) := by
  have hcalm := (World.follows_calm hQ.steady).steady
  induction steps generalizing gas with
  | zero => exact .pure hcalm _
  | succ steps ih =>
      refine .bind hcalm (Host.next_calm hQ host cursor) (fun found => ?_)
      rcases found with ⟨e | _ | e, used⟩
      · exact .pure hcalm _
      · exact .pure hcalm _
      · exact .bind hcalm (ih _) (fun _ => .pure hcalm _)

/-- The operations that are no calls leave the registry alone. -/
theorem perform_calm (s : Setting) (hcap : s.host.capabilities.Within Q) (used : Report)
    (op : Op) (hop : ∀ contract delegate funds ops, op ≠ .call contract delegate funds ops) :
    (perform s used op).Within (World.Calm Q) := by
  have hfollows := World.follows_calm hQ.steady
  have hcalm := hfollows.steady
  cases op with
  | set key value =>
      exact .bind hcalm (Host.set_within hQ hfollows s.host s.call _ _) (fun _ => .pure hcalm _)
  | get key =>
      exact .bind hcalm (Host.get_within hQ hfollows s.host s.call _) (fun _ => .pure hcalm _)
  | delete key =>
      exact .bind hcalm (Host.delete_within hQ hfollows s.host s.call _) (fun _ => .pure hcalm _)
  | scan start stop descending =>
      refine .bind hcalm (Host.scan_calm hQ s.host s.call _ _) (fun opened => ?_)
      rcases opened with ⟨e | cursor, gas⟩
      · exact .pure hcalm _
      · refine .bind hcalm (.get hcalm) (fun w => ?_)
        exact .bind hcalm (drain_calm hQ s.host cursor _ gas) (fun _ => .pure hcalm _)
  | call contract delegate funds ops => exact absurd rfl (hop contract delegate funds ops)
  | query request gasLimit =>
      exact .bind hcalm (Host.queryDecoded_within hfollows s.call _ gasLimit)
        (fun _ => .pure hcalm _)
  | canonicalize address =>
      exact .bind hcalm (Host.canonicalize_within hQ hfollows s.host hcap s.call address)
        (fun _ => .pure hcalm _)
  | fail message => exact .pure hcalm _
  | panic message => exact fun w => hcalm.refl w

omit hQ

/-- An operation leaves the registry alone, or gives the handle of its callee back. -/
theorem perform_restored {n : Nat} (s : Setting) (hnested : s.nested.Restores n)
    (used : Report) (op : Op) : (perform s used op).Within (World.Restored (n + 1)) := by
  have hrestored := World.steady_restored (n + 1)
  -- Only a call registers anything.
  by_cases hop : ∃ contract delegate funds ops, op = .call contract delegate funds ops
  · rcases hop with ⟨contract, delegate, funds, ops, rfl⟩
    refine .bind hrestored (.get hrestored) (fun w => ?_)
    cases w.registry.lookup s.call with
    | error e => exact .pure hrestored _
    | ok ctx =>
        exact .bind hrestored (Host.callContract_restored hnested s.host s.call _)
          (fun _ => .pure hrestored _)
  · have hcalm := perform_calm Chain.harmless_trivial s s.host.capabilities.within_trivial used op
      (fun contract delegate funds ops h => hop ⟨contract, delegate, funds, ops, h⟩)
    exact fun w => (hcalm w).restored

/-- The charge for an operation is no matter of the registry. -/
theorem step_restored {n : Nat} (s : Setting) (hnested : s.nested.Restores n)
    (used : Report) (op : Op) : (step s used op).Within (World.Restored (n + 1)) :=
  step_within (World.steady_restored (n + 1)) (perform_restored s hnested used op)

/-- A run needs room for one call more than the runs that it starts. -/
theorem engineOver_restores {n : Nat} (host : Host) {nested : Engine}
    (hnested : nested.Restores n) : (engineOver host nested).Restores (n + 1) := by
  intro invocation call
  -- The note of a run is no matter of the registry.
  exact engineOver_within (World.steady_restored (n + 1)) (fun w => World.restored_of_eq rfl)
    (fun used op => perform_restored ⟨host, nested, invocation, call⟩ hnested used op)

/-- Below the last level no call is registered. -/
theorem refusal_restores (n : Nat) : refusal.Restores n :=
  fun _ _ => .pure (World.steady_restored n) _

/-- Every level of the engine gives its handles back, if there is room for the calls of
    the levels below it. -/
theorem engineAt_restores (host : Host) (level : Nat) :
    (engineAt host level).Restores (level + 1) := by
  induction level with
  | zero => exact engineOver_restores host (refusal_restores 0)
  | succ level ih => exact engineOver_restores host ih

end Script

namespace Host

/-- A run changes nothing but counters in the registry, whichever way it ends.

    `hroom` leaves a free handle for every call that can be live at once. Without one the
    search for a handle would not end, and neither would the run. -/
theorem run_restores_registry (host : Host) (binding : Binding) (request : Request) (w : World)
    (hreached : w.registry.Reached) (hroom : w.registry.size + nestingLimit + 2 < Word.top) :
    ∃ next issued, (host.run (Script.engine host) binding request w).2.registry =
      { w.registry with next := next, issued := issued } := by
  rw [run_apply]
  have hengine := Script.engineAt_restores host nestingLimit (host.topInvocation request)
    (w.register binding).1 (w.register binding).2
  -- The room is for one call more than the engine needs, which is the call of the run itself.
  have hopened : (w.register binding).2.registry = (w.registry.insert binding none 0).2 := rfl
  rcases World.Restored.release hopened hengine hreached.consistent hroom with ⟨_, hsettled⟩
  exact ⟨_, _, hsettled.eq_with⟩

end Host

/-- The call in between is released, although the script below it panics. -/
theorem Host.run_restores_registry_of_panic :
    ∃ next issued,
      (Host.small.run (Script.engine .small) .small
        (.executing [.call "a" false [] [.panic "no"]] 100) .small).2.registry =
      { World.small.registry with next := next, issued := issued } :=
  Host.run_restores_registry _ _ _ _ World.reached_small (by decide)

end ContractHost
