import ContractHost.Effect

/-!
# Steps and What They Leave Alone

A step is a function on states under two layers of outcomes. The first part of this
file opens the layers: applied to a state, every way of building a step computes to a
pair of an outcome and a state, so a proof about a request is a proof about a `match`.

The second part is for facts that do not depend on the outcome. Most of what a host
does leaves most of the state alone, and it does so whether it succeeds, refuses or
panics. `Within R` says that a step moves along `R` whichever way it ends. For a
relation that is reflexive and transitive, which `Steady` says, a step moves along it
as soon as its parts do, and no proof has to look at outcomes at all.

The third part is for what a step does not look at. `Ignores f` says that it does not
matter whether the state is changed by `f` before the step or after it, and this too goes
from the parts of a step to the whole.

The fourth part is for the reasons of a refusal. `Refuses P` says that whatever an attempt is
refused with is as `P` says, and a row of attempts is refused with what one of them is refused
with. In the same way `Yields P` says that whatever a step hands back is as `P` says, and of a row
of steps only the last one matters for that, or what the last one makes of the others.

## Main definitions

* `Steady`: A relation that any number of steps in a row may move along.
* `Action.Within`, `Attempt.Within`: A step moves along a relation whichever way it ends.
* `Action.Yields`: A step hands back certain results only.
* `Attempt.Ignores`: A step does not look at what a change changes.
* `Attempt.Refuses`: An attempt is refused for certain reasons only.

## Theorems

* `Action.bind_apply`, `Attempt.bind_apply`: Two steps in a row.
* `Action.bind_ok`: Two steps in a row that end well.
* `Attempt.mapError_apply`, `Attempt.focus_apply`: Refusals renamed, and a part of the
  state as the whole.
* `Action.Within.bind`, `Attempt.Within.bind`: Steps in a row move along a steady relation.
* `Action.Yields.bind`: What steps in a row hand back.
* `Attempt.Within.forM`: So does a step for every member of a list.
* `Attempt.Within.focus`: A step on a part moves the whole along the relation of the part.
* `Attempt.Ignores.bind`: Steps in a row ignore what each of them ignores.
* `Attempt.Refuses.bind`: Attempts in a row are refused for the reasons of each of them.
-/

namespace ContractHost

/-- A relation that any number of steps in a row may move along. -/
structure Steady {σ : Type} (R : σ → σ → Prop) : Prop where
  refl : ∀ s, R s s
  trans : ∀ {s t u}, R s t → R t u → R s u

namespace Action

variable {σ α β : Type}

/-- The second step starts where the first has ended, unless that was a panic. -/
theorem bind_apply (x : Action σ α) (f : α → Action σ β) (s : σ) :
    (x >>= f) s = match x s with
      | (.ok a, t) => f a t
      | (.error p, t) => (.error p, t) := by
  change (ExceptT.bind x f) s = _
  unfold ExceptT.bind ExceptT.mk
  change (match x s with | (r, t) => (ExceptT.bindCont f r) t) = _
  rcases x s with ⟨_ | _, t⟩
  · rfl
  · rfl

/-- Two steps in a row end well only if both do. -/
theorem bind_ok {x : Action σ α} {f : α → Action σ β} {s t : σ} {b : β}
    (h : (x >>= f) s = (.ok b, t)) : ∃ a u, x s = (.ok a, u) ∧ f a u = (.ok b, t) := by
  rw [bind_apply] at h
  rcases hx : x s with ⟨p | a, u⟩
  · rw [hx] at h
    cases h
  · rw [hx] at h
    exact ⟨a, u, rfl, h⟩

theorem pure_apply (a : α) (s : σ) : (pure a : Action σ α) s = (.ok a, s) := rfl

theorem get_apply (s : σ) : (getThe σ : Action σ σ) s = (.ok s, s) := rfl

theorem set_apply (s t : σ) : (MonadStateOf.set t : Action σ PUnit) s = (.ok ⟨⟩, t) := rfl

theorem modify_apply (f : σ → σ) (s : σ) :
    (modifyThe σ f : Action σ PUnit) s = (.ok ⟨⟩, f s) := rfl

theorem panic_apply (p : Panic) (s : σ) : (panic p : Action σ α) s = (.error p, s) := rfl

theorem ensuring_apply (x : Action σ α) (cleanup : σ → σ) (s : σ) :
    x.ensuring cleanup s = ((x s).1, cleanup (x s).2) := rfl

/-- Whichever way the step ends, `R` holds between the state before it and the state
    after it. -/
def Within (R : σ → σ → Prop) (x : Action σ α) : Prop := ∀ s, R s (x s).2

namespace Within

variable {R : σ → σ → Prop}

theorem pure (hR : Steady R) (a : α) : Within R (Pure.pure a : Action σ α) :=
  fun s => hR.refl s

theorem get (hR : Steady R) : Within R (getThe σ : Action σ σ) := fun s => hR.refl s

/-- Steps in a row move along a steady relation if each of them does. -/
theorem bind (hR : Steady R) {x : Action σ α} {f : α → Action σ β}
    (hx : Within R x) (hf : ∀ a, Within R (f a)) : Within R (x >>= f) := by
  intro s
  have hfirst := hx s
  rw [bind_apply]
  -- A panic ends the row, and then the first step is all that has happened.
  rcases h : x s with ⟨p | a, t⟩
  · rw [h] at hfirst
    exact hfirst
  · rw [h] at hfirst
    exact hR.trans hfirst (hf a t)

end Within

/-- Whatever the step hands back is as `P` says. -/
def Yields (P : α → Prop) (x : Action σ α) : Prop := ∀ s a t, x s = (.ok a, t) → P a

namespace Yields

variable {P : α → Prop}

theorem pure {a : α} (h : P a) : Yields P (Pure.pure a : Action σ α) := by
  intro s b t hb
  cases hb
  exact h

theorem panic (P : α → Prop) (p : Panic) : Yields P (Action.panic p : Action σ α) := nofun

/-- What the last step makes of results of the first one is what matters. -/
theorem bind {Q : β → Prop} {x : Action σ α} {f : α → Action σ β} (hx : Yields P x)
    (hf : ∀ a, P a → Yields Q (f a)) : Yields Q (x >>= f) := by
  intro s b t hb
  -- A result of both is a result of the second, made of one of the first.
  rcases bind_ok hb with ⟨a, u, ha, hb⟩
  exact hf a (hx s a u ha) u b t hb

/-- What the first of two steps hands back may not matter. -/
theorem after {x : Action σ α} {f : α → Action σ β} {Q : β → Prop} (hf : ∀ a, Yields Q (f a)) :
    Yields Q (x >>= f) :=
  bind (P := fun _ => True) (fun _ _ _ _ => trivial) (fun a _ => hf a)

end Yields

end Action

namespace Attempt

variable {σ τ ε ε' α β : Type}

/-- The second attempt starts where the first has ended, unless that was a refusal or a panic. -/
theorem bind_apply (x : Attempt σ ε α) (f : α → Attempt σ ε β) (s : σ) :
    (x >>= f : Attempt σ ε β) s = match x s with
      | (.ok (.ok a), t) => f a t
      | (.ok (.error e), t) => (.ok (.error e), t)
      | (.error p, t) => (.error p, t) := by
  change (ExceptT.bind (m := Action σ) x f : Action σ (Except ε β)) s = _
  -- An attempt is an action that hands back a refusal as a result, so its row is one of actions.
  unfold ExceptT.bind ExceptT.mk
  rw [Action.bind_apply]
  rcases x s with ⟨_ | _ | _, t⟩
  · rfl
  · rfl
  · rfl

theorem pure_apply (a : α) (s : σ) : (pure a : Attempt σ ε α) s = (.ok (.ok a), s) := rfl

theorem throw_apply (e : ε) (s : σ) :
    (throw e : Attempt σ ε α) s = (.ok (.error e), s) := rfl

theorem panic_apply (p : Panic) (s : σ) :
    (Attempt.panic p : Attempt σ ε α) s = (.error p, s) := rfl

theorem ofExcept_apply (r : Except ε α) (s : σ) :
    (ofExcept r : Attempt σ ε α) s = (.ok r, s) := rfl

theorem get_apply (s : σ) : (getThe σ : Attempt σ ε σ) s = (.ok (.ok s), s) := rfl

theorem set_apply (s t : σ) :
    (MonadStateOf.set t : Attempt σ ε PUnit) s = (.ok (.ok ⟨⟩), t) := rfl

theorem modify_apply (f : σ → σ) (s : σ) :
    (modifyThe σ f : Attempt σ ε PUnit) s = (.ok (.ok ⟨⟩), f s) := rfl

theorem outcome_apply (x : Attempt σ ε α) (s : σ) : x.outcome s = x s := rfl

theorem focus_apply (part : σ → τ) (update : σ → τ → σ) (x : Attempt τ ε α) (s : σ) :
    x.focus part update s = ((x (part s)).1, update s (x (part s)).2) := rfl

/-- What is handed back is changed, and nothing else. -/
theorem map_apply (f : α → β) (x : Attempt σ ε α) (s : σ) :
    (f <$> x : Attempt σ ε β) s = ((x s).1.map (Except.map f), (x s).2) := by
  change (x >>= fun a => pure (f a) : Attempt σ ε β) s = _
  rw [bind_apply]
  rcases x s with ⟨_ | _ | _, t⟩
  · rfl
  · rfl
  · rfl

theorem map_refuses {f : α → β} {x : Attempt σ ε α} {s : σ} {e : ε}
    (h : ((f <$> x : Attempt σ ε β) s).1 = .ok (.error e)) : (x s).1 = .ok (.error e) := by
  rw [map_apply] at h
  rcases hx : (x s).1 with _ | _ | _
  · rw [hx] at h
    cases h
  · rw [hx] at h
    cases h
    rfl
  · rw [hx] at h
    cases h

/-- What is handed back after a change is the change of something. -/
theorem map_yields {f : α → β} {x : Attempt σ ε α} {s : σ} {b : β}
    (h : ((f <$> x : Attempt σ ε β) s).1 = .ok (.ok b)) : ∃ a, b = f a := by
  rw [map_apply] at h
  rcases hx : (x s).1 with _ | _ | a
  · rw [hx] at h
    cases h
  · rw [hx] at h
    cases h
  · rw [hx] at h
    cases h
    exact ⟨a, rfl⟩

/-- A refusal is renamed, and nothing else changes. -/
theorem mapError_apply (f : ε → ε') (x : Attempt σ ε α) (s : σ) :
    x.mapError f s = ((x s).1.map (Except.mapError f), (x s).2) := by
  change (x.outcome >>= fun r => Pure.pure (Except.mapError f r)) s = _
  rw [Action.bind_apply, outcome_apply]
  rcases x s with ⟨_ | _, t⟩
  · rfl
  · rfl

/-- Whichever way the attempt ends, `R` holds between the state before it and the state
    after it. -/
def Within (R : σ → σ → Prop) (x : Attempt σ ε α) : Prop := ∀ s, R s (x s).2

namespace Within

variable {R : σ → σ → Prop}

theorem pure (hR : Steady R) (a : α) : Within R (Pure.pure a : Attempt σ ε α) :=
  fun s => hR.refl s

theorem throw (hR : Steady R) (e : ε) :
    Within R (MonadExcept.throw e : Attempt σ ε α) := fun s => hR.refl s

theorem panic (hR : Steady R) (p : Panic) : Within R (Attempt.panic p : Attempt σ ε α) :=
  fun s => hR.refl s

theorem ofExcept (hR : Steady R) (r : Except ε α) :
    Within R (Attempt.ofExcept r : Attempt σ ε α) := fun s => hR.refl s

theorem get (hR : Steady R) : Within R (getThe σ : Attempt σ ε σ) := fun s => hR.refl s

/-- Attempts in a row move along a steady relation if each of them does. -/
theorem bind (hR : Steady R) {x : Attempt σ ε α} {f : α → Attempt σ ε β}
    (hx : Within R x) (hf : ∀ a, Within R (f a)) : Within R (x >>= f : Attempt σ ε β) := by
  intro s
  have hfirst := hx s
  rw [bind_apply]
  -- Only an answer lets the second attempt begin.
  rcases h : x s with ⟨p | e | a, t⟩
  · rw [h] at hfirst
    exact hfirst
  · rw [h] at hfirst
    exact hfirst
  · rw [h] at hfirst
    exact hR.trans hfirst (hf a t)

/-- An attempt for every member of a list moves along a steady relation if each of them does. -/
theorem forM (hR : Steady R) {f : α → Attempt σ ε PUnit} (hf : ∀ a, Within R (f a))
    (items : List α) : Within R (items.forM f : Attempt σ ε PUnit) := by
  induction items with
  | nil => exact pure hR _
  | cons a items ih =>
      change Within R (f a >>= fun _ => items.forM f : Attempt σ ε PUnit)
      exact bind hR (hf a) (fun _ => ih)

theorem mapError {x : Attempt σ ε α} (f : ε → ε') (hx : Within R x) :
    Within R (x.mapError f) := by
  intro s
  rw [mapError_apply]
  exact hx s

/-- A step on a part moves the whole along `S`, if `S` lets the part move along `R`. -/
theorem focus {S : τ → τ → Prop} {part : τ → σ} {update : τ → σ → τ}
    {x : Attempt σ ε α} (hupdate : ∀ t s, R (part t) s → S t (update t s))
    (hx : Within R x) : Within S (x.focus part update) := by
  intro t
  rw [focus_apply]
  exact hupdate t _ (hx (part t))

end Within

/-- It does not matter whether `f` changes the state before the attempt or after it. -/
def Ignores (f : σ → σ) (x : Attempt σ ε α) : Prop := ∀ s, x (f s) = ((x s).1, f (x s).2)

namespace Ignores

variable {f : σ → σ}

theorem pure (f : σ → σ) (a : α) : Ignores f (Pure.pure a : Attempt σ ε α) := fun _ => rfl

theorem throw (f : σ → σ) (e : ε) : Ignores f (MonadExcept.throw e : Attempt σ ε α) :=
  fun _ => rfl

theorem panic (f : σ → σ) (p : Panic) : Ignores f (Attempt.panic p : Attempt σ ε α) :=
  fun _ => rfl

theorem ofExcept (f : σ → σ) (r : Except ε α) :
    Ignores f (Attempt.ofExcept r : Attempt σ ε α) := fun _ => rfl

/-- Attempts in a row ignore what each of them ignores. -/
theorem bind {x : Attempt σ ε α} {g : α → Attempt σ ε β} (hx : Ignores f x)
    (hg : ∀ a, Ignores f (g a)) : Ignores f (x >>= g : Attempt σ ε β) := by
  intro s
  -- The change is pushed behind the first attempt, and from there behind the second.
  rw [bind_apply, bind_apply, hx s]
  rcases x s with ⟨p | e | a, t⟩
  · rfl
  · rfl
  · exact hg a t

theorem map (g : α → β) {x : Attempt σ ε α} (hx : Ignores f x) :
    Ignores f (g <$> x : Attempt σ ε β) := by
  intro s
  rw [map_apply, map_apply, hx s]

theorem mapError (g : ε → ε') {x : Attempt σ ε α} (hx : Ignores f x) :
    Ignores f (x.mapError g) := by
  intro s
  rw [mapError_apply, mapError_apply, hx s]

/-- A step on a part ignores a change of the whole that it ignores on the part. -/
theorem focus {f' : τ → τ} {part : τ → σ} {update : τ → σ → τ} {x : Attempt σ ε α}
    (hpart : ∀ t, part (f' t) = f (part t)) (hupdate : ∀ t s, update (f' t) (f s) = f' (update t s))
    (hx : Ignores f x) : Ignores f' (x.focus part update) := by
  intro t
  rw [focus_apply, focus_apply, hpart, hx (part t)]
  exact congrArg (Prod.mk _) (hupdate t _)

end Ignores

/-- Whatever the attempt is refused with is as `P` says. -/
def Refuses (P : ε → Prop) (x : Attempt σ ε α) : Prop := ∀ s e, (x s).1 = .ok (.error e) → P e

namespace Refuses

variable {P : ε → Prop}

theorem pure (P : ε → Prop) (a : α) : Refuses P (Pure.pure a : Attempt σ ε α) := nofun

theorem throw {e : ε} (h : P e) : Refuses P (MonadExcept.throw e : Attempt σ ε α) := by
  intro s e' he
  cases he
  exact h

theorem ofExcept {r : Except ε α} (h : ∀ e, r = .error e → P e) :
    Refuses P (Attempt.ofExcept r : Attempt σ ε α) := fun _ e he => h e (Except.ok.inj he)

theorem get (P : ε → Prop) : Refuses P (getThe σ : Attempt σ ε σ) := nofun

theorem modify (P : ε → Prop) (f : σ → σ) :
    Refuses P (modifyThe σ f : Attempt σ ε PUnit) := nofun

theorem set (P : ε → Prop) (s : σ) :
    Refuses P (MonadStateOf.set s : Attempt σ ε PUnit) := nofun

theorem mono {P' : ε → Prop} {x : Attempt σ ε α} (hx : Refuses P x) (h : ∀ e, P e → P' e) :
    Refuses P' x := fun s e he => h e (hx s e he)

/-- Attempts in a row are refused for the reasons of each of them. -/
theorem bind {x : Attempt σ ε α} {f : α → Attempt σ ε β} (hx : Refuses P x)
    (hf : ∀ a, Refuses P (f a)) : Refuses P (x >>= f : Attempt σ ε β) := by
  intro s e he
  rw [bind_apply] at he
  -- The refusal is the first one's own, or it comes up behind its answer.
  rcases h : x s with ⟨p | e' | a, t⟩
  · rw [h] at he
    cases he
  · rw [h] at he
    cases he
    exact hx s e (by rw [h])
  · rw [h] at he
    exact hf a t e he

/-- Attempts for the members of a list are refused for the reasons of each of them. -/
theorem forM {f : α → Attempt σ ε PUnit} (hf : ∀ a, Refuses P (f a)) (items : List α) :
    Refuses P (items.forM f : Attempt σ ε PUnit) := by
  induction items with
  | nil => exact pure P _
  | cons a items ih =>
      change Refuses P (f a >>= fun _ => items.forM f : Attempt σ ε PUnit)
      exact bind (hf a) (fun _ => ih)

/-- A step on a part is refused for the same reasons as one on the whole. -/
theorem focus {part : τ → σ} {update : τ → σ → τ} {x : Attempt σ ε α} (hx : Refuses P x) :
    Refuses P (x.focus part update) := fun t e he => hx (part t) e he

end Refuses

end Attempt

end ContractHost
