import ContractHost.Proofs.Host.Inquiry
import ContractHost.Proofs.Registry.Map
import ContractHost.Proofs.Run.Moments
import Mathlib.Logic.Relation

/-!
# Resolving Nested Calls

Resolving a nested call can fail in four places: its call may not be live, it may lie too deep
already, the capability may refuse, and the code identifier it gives may be no checksum. In all
of them the registry is as it was. If nothing fails, one call more is live, and it is the one
that is handed out.

How deep a live call lies is decided when it is registered, and from then on it does not change,
also if the calls above it are released. So a bound on the depth is not kept by the calls above
a call but by what has happened before. `Host.Step` is what can happen to a world between two
looks at it: an inquiry, a registration or a release of a call in any order, the note of a run,
and whatever has nothing to do with calls. `Host.Reached` are the worlds that come about in this
way, and all of them are `World.WithinDepth`.

Depths are 32-bit words, and the depth below the greatest one is again the greatest one. It
takes more registrations than there are such words to get there, because every call lies less
deep than there have been registrations.

## Main definitions

* `Host.Resolved`: A nested call has been registered.
* `Registry.WithinDepth`, `World.WithinDepth`: No call lies too deep, and none has run too deep.
* `Host.Step`, `Host.Reached`: What can happen to a world, and what can come about.

## Theorems

* `Host.resolveCall_ok_iff`: When a call is resolved.
* `Host.resolveCall_resolved`: What a resolved call changes.
* `Host.Step.withinDepth`, `Host.Reached.withinDepth`: The bound on the depth, for one step and
  for any number of them.
-/

namespace ContractHost

/-! ## One resolution -/

/-- A nested call has been registered at some depth, and nothing else has changed in the
    registry but the count of children of the call above it. -/
structure Host.Resolved (host : Host) (call : Handle) (contract store : String)
    (parent : Context) (depth : Nat) (child : ResolvedCall) (w w' : World) : Prop where
  live : w.registry.lookup call = .ok parent
  allowed : ¬ host.maxDepth < parent.childDepth
  /-- The capability has found what the call is bound to, and the checksum is the code
      identifier that it has given. -/
  found : ∃ found c, host.capabilities.resolveCall parent contract store w.chain =
      (.ok (.ok found), c) ∧ found.code.length = Checksum.size ∧
    child.checksum.bytes = found.code ∧
    w.registry.live.Adds w'.registry.live child.call (some call) depth found.binding
  count_self : w'.registry.childCount call = w.registry.childCount call + 1
  count_others : ∀ k, k ≠ call → w'.registry.childCount k = w.registry.childCount k

theorem Checksum.ofIdentifier_ok_iff {b : Bytes} {c : Checksum} :
    ofIdentifier b = .ok c ↔ c.bytes = b := by
  unfold ofIdentifier ofBytes?
  by_cases h : b.length = 32
  · rw [dif_pos h]
    rcases c with ⟨b', hb'⟩
    simp only [Except.ok.injEq, Checksum.mk.injEq]
    exact eq_comm
  · rw [dif_neg h]
    constructor
    · intro heq
      cases heq
    · intro heq
      rw [← heq] at h
      exact absurd c.length_bytes h

namespace Host

variable {host : Host} {call : Handle} {contract store : String} {w w' : World}

/-- A call is resolved exactly if the call that asks is live and not too deep, and the capability
    finds something under a checksum. -/
theorem resolveCall_ok_iff (host : Host) (call : Handle) (contract store : String) (w : World) :
    (∃ child gas, (host.resolveCall call contract store w).1 = .ok (.ok child, gas)) ↔
      ∃ parent found c, w.registry.lookup call = .ok parent ∧
        ¬ host.maxDepth < parent.childDepth ∧
        host.capabilities.resolveCall parent contract store w.chain = (.ok (.ok found), c) ∧
        found.code.length = Checksum.size := by
  constructor
  · -- Of the ways a resolution can end, only the last one hands back a call.
    rintro ⟨child, gas, hok⟩
    rcases hresolve : host.resolveCall call contract store w with ⟨x, w'⟩
    rw [hresolve] at hok
    rcases resolveCall_cases hresolve with
      ⟨-, hnone⟩ | ⟨parent, found, c, checksum, used, hlive, hdeep, hfound, hsum, -, -⟩
    · exact absurd hok (hnone child gas)
    · refine ⟨parent, found, c, hlive, hdeep, hfound, ?_⟩
      rw [← Checksum.ofIdentifier_ok_iff.mp hsum]
      exact checksum.length_bytes
  · rintro ⟨parent, found, c, hlive, hdeep, hfound, hlength⟩
    have hsum : Checksum.ofIdentifier found.code = .ok ⟨found.code, hlength⟩ :=
      Checksum.ofIdentifier_ok_iff.mpr rfl
    unfold resolveCall
    rw [World.withContext_live _ hlive]
    -- Every step on the way succeeds, so the last one is reached.
    simp only [if_neg hdeep, Attempt.bind_apply, World.onChain_apply, hfound,
      Attempt.ofExcept_apply, hsum, Attempt.get_apply, Attempt.set_apply, Attempt.pure_apply]
    exact ⟨_, _, rfl⟩

/-- What a resolved call changes, with room for one. -/
theorem resolveCall_resolved (hw : w.registry.Consistent) (hroom : w.registry.size < Word.top)
    {child : ResolvedCall} {gas : Report}
    (h : host.resolveCall call contract store w = (.ok (.ok child, gas), w')) :
    ∃ parent, host.Resolved call contract store parent
      (min (parent.depth.toNat + 1) (UInt32.size - 1)) child w w' := by
  rcases resolveCall_cases h with
    ⟨-, hnone⟩ | ⟨parent, found, c, checksum, used, hlive, hdeep, hfound, hsum, hx, rfl⟩
  · exact absurd rfl (hnone child gas)
  · cases hx
    -- The call is registered below the handle that the context carries, which is that of the call.
    have hget := Registry.lookup_eq_ok_iff.mp hlive
    have hhandle := hw.handle_eq call parent hget
    have hbytes := Checksum.ofIdentifier_ok_iff.mp hsum
    have hadds := Registry.insert_adds hw hroom found.binding (some parent.handle)
      parent.childDepth
    rw [Context.toNat_childDepth, hhandle] at hadds
    have hcount := Registry.childCount_registerChild (hhandle ▸ hget) found.binding
    rw [hhandle] at hcount
    refine ⟨parent, hlive, hdeep, ⟨found, c, hfound, ?_, hbytes, ?_⟩, ?_, fun k hk => ?_⟩
    · rw [← hbytes]
      exact checksum.length_bytes
    · rw [← hhandle] at hadds ⊢
      exact hadds
    · exact (hcount call).trans (if_pos rfl)
    · exact (hcount k).trans (if_neg hk)

end Host

/-! ## Any number of steps -/

/-- No live call lies deeper than `max`, or as deep as there have been registrations. -/
structure Registry.WithinDepth (max : UInt32) (r : Registry) : Prop where
  reached : r.Reached
  live_le : ∀ h c, r.calls.get? h = some c → c.depth ≤ max
  live_lt : ∀ h c, r.calls.get? h = some c → c.depth.toNat < r.issued

namespace Registry.WithinDepth

variable {max : UInt32} {r : Registry}

theorem empty (max : UInt32) : Registry.empty.WithinDepth max where
  reached := .empty
  live_le _ _ h := by cases h
  live_lt _ _ h := by cases h

/-- What is live after a registration is the new call or has been live before. -/
theorem insert (hr : r.WithinDepth max) {b : Binding} {parent : Option Handle} {depth : UInt32}
    (hreached : (r.insert b parent depth).2.Reached) (hle : depth ≤ max)
    (hlt : depth.toNat ≤ r.issued) : (r.insert b parent depth).2.WithinDepth max := by
  have hcases : ∀ h c, (r.insert b parent depth).2.calls.get? h = some c →
      c.depth = depth ∨ r.calls.get? h = some c := by
    intro h c hc
    rw [calls_insert, Table.get?_set] at hc
    by_cases hh : h = r.allocate.1
    · rw [if_pos hh, Option.some.injEq] at hc
      rw [← hc]
      exact Or.inl rfl
    · rw [if_neg hh] at hc
      exact Or.inr hc
  -- The new call is as deep as it says, and an old one as deep as before.
  refine ⟨hreached, fun h c hc => ?_, fun h c hc => ?_⟩
  · rcases hcases h c hc with heq | hold
    · rw [heq]
      exact hle
    · exact hr.live_le h c hold
  · rw [insert_eq]
    rcases hcases h c hc with heq | hold
    · rw [heq]
      exact Nat.lt_succ_of_le hlt
    · exact Nat.lt_succ_of_lt (hr.live_lt h c hold)

/-- A call from outside is at depth zero. -/
theorem register (hr : r.WithinDepth max) (b : Binding) : (r.register b).2.WithinDepth max := by
  refine hr.insert (.register b hr.reached) ?_ (Nat.zero_le _)
  rw [UInt32.le_iff_toNat_le]
  exact Nat.zero_le _

/-- A nested call is one deeper than the call above it, which is live and not too deep. -/
theorem registerChild (hr : r.WithinDepth max) {parent : Context}
    (hlive : r.calls.get? parent.handle = some parent) (hdeep : ¬ max < parent.childDepth)
    (b : Binding) : (r.registerChild parent b).2.WithinDepth max := by
  refine hr.insert (.registerChild parent b hr.reached) (UInt32.not_lt.mp hdeep) ?_
  -- The call above is live, so it lies less deep than there have been registrations.
  have hlt := hr.live_lt _ _ hlive
  rw [Context.toNat_childDepth]
  omega

/-- What is live after a release has been live before. -/
theorem release (hr : r.WithinDepth max) (h : Handle) : (r.release h).2.WithinDepth max where
  reached := .release h hr.reached
  live_le k c hc := hr.live_le k c (get?_of_release hc)
  live_lt k c hc := by
    rw [release_eq]
    exact hr.live_lt k c (get?_of_release hc)

end Registry.WithinDepth

/-- No live call lies deeper than `max`, and no engine has run deeper. -/
structure World.WithinDepth (max : UInt32) (w : World) : Prop where
  registry : w.registry.WithinDepth max
  runs_le : ∀ run ∈ w.runs, run.depth ≤ max

namespace Host

/-- What can happen to a world between two looks at it. -/
inductive Step (host : Host) : World → World → Prop
  | answer (q : Inquiry) (w : World) : Step host w (host.answer q w).2
  | register (b : Binding) (w : World) : Step host w (w.register b).2
  | release (h : Handle) (w : World) : Step host w (w.release h)
  /-- An engine is about to run for a call. -/
  | note (invocation : Invocation) (call : Handle) (w : World) :
      Step host w (Script.noted invocation call w)
  /-- Anything else happens, on the chain, in the cache or outside. -/
  | other {w w' : World} : w'.registry = w.registry → w'.runs = w.runs → Step host w w'

/-- A world that comes about from one in which nothing has been registered or run. -/
def Reached (host : Host) (w : World) : Prop :=
  ∃ w₀ : World, w₀.registry = .empty ∧ w₀.runs = [] ∧ Relation.ReflTransGen host.Step w₀ w

variable {host : Host} {w w' : World}

/-- Answers are not noted. -/
theorem answer_runs (host : Host) (q : Inquiry) :
    (host.answer q).Within fun w w' => w'.runs = w.runs := by
  have hruns : World.Follows (fun _ _ => True) fun w w' => w'.runs = w.runs :=
    ⟨⟨fun _ => rfl, fun h h' => h'.trans h⟩, fun _ _ _ => rfl⟩
  exact answer_within Chain.harmless_trivial host.capabilities.within_trivial hruns
    (fun _ _ _ => rfl) q (fun _ _ _ _ => rfl)

/-- Only a resolution registers a call, and it has looked at the depth first. -/
theorem answer_withinDepth (hw : w.WithinDepth host.maxDepth) (q : Inquiry) :
    (host.answer q w).2.WithinDepth host.maxDepth := by
  refine ⟨?_, by rw [answer_runs host q w]; exact hw.runs_le⟩
  by_cases hq : q.Resolves
  · cases q with
    | resolveCall call contract store =>
        change (host.resolveCall call contract store w).2.registry.WithinDepth _
        rcases hresolve : host.resolveCall call contract store w with ⟨x, w'⟩
        rcases resolveCall_cases hresolve with
          ⟨hsame, -⟩ | ⟨parent, found, c, checksum, gas, hlive, hdeep, -, -, -, rfl⟩
        · rw [hsame]
          exact hw.registry
        · -- The call that asks is live, and its depth has been looked at.
          have hget := Registry.lookup_eq_ok_iff.mp hlive
          have hhandle := hw.registry.reached.consistent.handle_eq call parent hget
          exact hw.registry.registerChild (hhandle ▸ hget) hdeep found.binding
    | _ => exact hq.elim
  · rw [answer_registry host hq w]
    exact hw.registry

/-- A step keeps to the bound on the depth. -/
theorem Step.withinDepth (h : host.Step w w') (hw : w.WithinDepth host.maxDepth) :
    w'.WithinDepth host.maxDepth := by
  cases h with
  | answer q w => exact answer_withinDepth hw q
  | register b w => exact ⟨hw.registry.register b, hw.runs_le⟩
  | release k w => exact ⟨hw.registry.release k, hw.runs_le⟩
  | note invocation call w =>
      refine ⟨hw.registry, fun run hrun => ?_⟩
      rcases List.mem_append.mp hrun with hold | hnew
      · exact hw.runs_le run hold
      · -- What is noted is the depth of a live call, or zero.
        rw [List.mem_singleton.mp hnew]
        dsimp only
        cases hlookup : w.registry.lookup call with
        | error e =>
            rw [UInt32.le_iff_toNat_le]
            exact Nat.zero_le _
        | ok ctx => exact hw.registry.live_le call ctx (Registry.lookup_eq_ok_iff.mp hlookup)
  | other hregistry hruns =>
      refine ⟨?_, ?_⟩
      · rw [hregistry]
        exact hw.registry
      · rw [hruns]
        exact hw.runs_le

/-- The bound holds in every world that comes about. -/
theorem Reached.withinDepth (h : host.Reached w) : w.WithinDepth host.maxDepth := by
  rcases h with ⟨w₀, hregistry, hruns, hsteps⟩
  -- The first world has no calls and no runs, so the bound holds there for want of any.
  induction hsteps with
  | refl =>
      refine ⟨?_, ?_⟩
      · rw [hregistry]
        exact .empty _
      · rw [hruns]
        exact fun _ h => absurd h List.not_mem_nil
  | tail _ hstep ih => exact hstep.withinDepth ih

/-- What comes about from a reached world is reached. -/
theorem Reached.steps (h : host.Reached w) (hsteps : Relation.ReflTransGen host.Step w w') :
    host.Reached w' := by
  rcases h with ⟨w₀, hregistry, hruns, hfirst⟩
  exact ⟨w₀, hregistry, hruns, hfirst.trans hsteps⟩

end Host

end ContractHost
