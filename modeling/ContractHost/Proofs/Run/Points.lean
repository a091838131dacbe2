import ContractHost.Proofs.Run.Release

/-!
# What Holds at Every Point of a Run

A run has points at many levels, and a fact about all of them is proved level by level. Within
a script nothing has to be done for a fact that only depends on the live calls, because those
come back after every operation. From a script to the script of a call below it, there is one
step, which is the opening of the call. `Inherited` says that a fact survives both, and
`Inherited.pointsAt` that it then holds at every point, with whatever depends on the number of
levels that are left.

## Main definitions

* `Script.Inherited`: A fact about the call in progress that is handed down.

## Theorems

* `Script.moments_restored`: The live calls are the same at all moments of a script.
* `Script.opened_consistent`: One call more is live in a run that has been started.
* `Script.Inherited.pointsAt`, `Host.points_inherit`: What is handed down holds at every point.
-/

namespace ContractHost

namespace Script

/-- The live calls are the same at all moments of a script. -/
theorem moments_restored {n : Nat} (s : Setting) (hnested : s.nested.Restores n) (used : Report)
    (ops : List Op) (w : World) :
    ∀ m ∈ moments s used ops w, m.setting = s ∧ World.Restored (n + 1) w m.world := by
  have hrestored := World.steady_restored (n + 1)
  induction ops generalizing used w with
  | nil => exact fun m hm => absurd hm List.not_mem_nil
  | cons op ops ih =>
      intro m hm
      have hstep := step_restored s hnested used op w
      rw [moments] at hm
      rcases List.mem_cons.mp hm with rfl | hlater
      · exact ⟨rfl, hrestored.refl w⟩
      · -- The script goes on in the world that the operation has left.
        rcases hresult : step s used op w with ⟨p | ⟨e | output, used'⟩, w'⟩
        · rw [hresult] at hlater
          exact absurd hlater List.not_mem_nil
        · rw [hresult] at hlater
          exact absurd hlater List.not_mem_nil
        · rw [hresult] at hstep hlater
          rcases ih used' w' m hlater with ⟨hsetting, hrest⟩
          exact ⟨hsetting, hrestored.trans hstep hrest⟩

/-- One call more is live in a run that has been started. -/
theorem opened_consistent {m : Moment} {start : Start} (h : m.opened = some start)
    (hw : m.world.registry.Consistent) (hroom : m.world.registry.size < Word.top) :
    start.world.registry.Consistent ∧
      start.world.registry.size = m.world.registry.size + 1 := by
  rcases opened_cases h with ⟨_, _, _, _, request, child, gas, -, -, -, hopen, -, -⟩
  rcases Host.openCall_registers hopen with ⟨-, hnone⟩ |
      ⟨ctx, found, store, c, c', checksum, used, -, -, -, hopened⟩
  · exact absurd rfl (hnone child gas)
  · rw [hopened]
    exact ⟨hw.insert found.binding _ _, Registry.size_insert _ hw hroom found.binding _ _⟩

/-- A fact about the call in progress, the calls above it and the world, with `n` levels of
    nested calls left below. It is kept as long as the live calls are the same, and handed down
    by every call that is opened. -/
structure Inherited (host : Host) (P : (n : Nat) → List Moment → Handle → World → Prop) :
    Prop where
  settled : ∀ {n above call w w'}, P n above call w → w.registry.Settled w'.registry →
    P n above call w'
  opened : ∀ {n above} {m : Moment} {start : Start}, m.setting.host = host →
    m.world.registry.Consistent → m.world.registry.size < Word.top →
    P (n + 1) above m.setting.call m.world → m.opened = some start →
    P n (m :: above) start.call start.world

/-- What holds at a point, if `P` is handed down to it. -/
def Point.Inherits (host : Host) (P : (n : Nat) → List Moment → Handle → World → Prop)
    (p : Point) : Prop :=
  p.now.setting.host = host ∧ p.now.world.registry.Consistent ∧
    p.now.world.registry.size < Word.top ∧
    ∃ n, P n p.above p.now.setting.call p.now.world

variable {host : Host} {P : (n : Nat) → List Moment → Handle → World → Prop}

/-- If what lies below the calls of a script inherits, so does the script. -/
theorem Inherited.pointsOver (hP : Inherited host P) {n level : Nat} {nested : Engine}
    (hnested : nested.Restores n) {below : List Moment → Start → List Point}
    {above : List Moment} {start : Start}
    (hbelow : ∀ m start', m.setting.host = host → m.world.registry.Consistent →
      m.world.registry.size < Word.top → P level above m.setting.call m.world →
      m.opened = some start' → start'.world.registry.Consistent →
      start'.world.registry.size + n < Word.top →
      ∀ p ∈ below (m :: above) start', p.Inherits host P)
    (hw : start.world.registry.Consistent) (hroom : start.world.registry.size + (n + 1) < Word.top)
    (hstart : P level above start.call start.world) :
    ∀ p ∈ Script.pointsOver host nested below above start, p.Inherits host P := by
  intro p hp
  rcases mem_pointsOver_iff.mp hp with ⟨ops, -, m, hm, hpoint⟩
  rcases moments_restored ⟨host, nested, start.invocation, start.call⟩ hnested _ _ _ m hm with
    ⟨hsetting, hrestored⟩
  -- The live calls are those at the start, and the call of the script is one of them.
  rcases hrestored hw hroom with ⟨hconsistent, hsettled⟩
  have hsize : m.world.registry.size = start.world.registry.size := hsettled.size
  have hhost : m.setting.host = host := by rw [hsetting]
  have hnow : P level above m.setting.call m.world := by
    rw [hsetting]
    exact hP.settled hstart hsettled
  have hfree : m.world.registry.size < Word.top := by omega
  rcases hpoint with rfl | ⟨start', hopened, hinner⟩
  · exact ⟨hhost, hconsistent, hfree, level, hnow⟩
  · rcases opened_consistent hopened hconsistent hfree with ⟨hw', hsize'⟩
    exact hbelow m start' hhost hconsistent hfree hnow hopened hw' (by omega) p hinner

/-- What is handed down holds at every point. -/
theorem Inherited.pointsAt (hP : Inherited host P) (level : Nat) {above : List Moment}
    {start : Start} (hw : start.world.registry.Consistent)
    (hroom : start.world.registry.size + (level + 1) < Word.top)
    (hstart : P level above start.call start.world) :
    ∀ p ∈ Script.pointsAt host level above start, p.Inherits host P := by
  -- Each level takes one of the free handles for the call that it opens.
  induction level generalizing above start with
  | zero =>
      -- Nothing is listed below the last level.
      exact hP.pointsOver (refusal_restores 0)
        (fun _ _ _ _ _ _ _ _ _ p hp => absurd hp List.not_mem_nil) hw hroom hstart
  | succ level ih =>
      exact hP.pointsOver (engineAt_restores host level)
        (fun m start' hhost hm hfree hnow hopened hw' hroom' =>
          ih hw' hroom' (hP.opened hhost hm hfree hnow hopened)) hw hroom hstart

end Script

/-- What is handed down from the call of a run holds at every point of the run. -/
theorem Host.points_inherit {host : Host}
    {P : (n : Nat) → List Script.Moment → Handle → World → Prop}
    (hP : Script.Inherited host P) (binding : Binding) (request : Request) {w : World}
    (hw : w.registry.Consistent) (hroom : w.registry.size + nestingLimit + 2 < Word.top)
    (hstart : P nestingLimit [] (w.register binding).1 (w.register binding).2) :
    ∀ p ∈ host.points binding request w, p.Inherits host P := by
  have hsize : (w.register binding).2.registry.size = w.registry.size + 1 :=
    Registry.size_insert w.registry hw (by omega) binding none 0
  unfold points
  refine hP.pointsAt nestingLimit (hw.insert binding none 0) ?_ hstart
  dsimp only
  omega

end ContractHost
