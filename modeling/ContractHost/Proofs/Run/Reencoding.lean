import ContractHost.Proofs.Run.Blame
import ContractHost.Proofs.Run.Output
import ContractHost.Proofs.Small

/-!
# Messages Between the Levels of a Run

Between a call and its callee there are two messages, a script on the way down and an output on
the way up, and either could turn out not to be one. Then the run would be refused with the
failure of an engine though nobody has asked for it. This file says that it does not happen: once
the message of a run has been read, the scripts and the outputs below it all are.

Level by level, the script of a call takes three levels of nesting less than the call. So where a
run has no levels of calls left below it, its script has no calls.

A run is refused with the failure of an engine, then, if its own message is no script, or if a
script asks for the failure. Besides, the host hands on whatever a querier refuses a query with,
and that may be the failure of an engine as well.

## Main definitions

* `Script.Start.Fits`: The message of a run holds a script that is not too deep, or none.
* `Script.Moment.Raises`: An operation is where a failure comes from.
* `Script.Raised`: A failure comes from one of some points.

## Theorems

* `Script.pointsOver_traced`: The failures of a run are those that its operations raise.
* `Script.engineAt_raises`: What a run fails with, at every level.
* `Host.run_reencodes`: The messages between the levels of a run.
* `Host.run_fails_without_fail`: A run that fails though no script asks for it.
-/

namespace ContractHost

namespace Script

/-! ## Levels of calls -/

/-- If the message of a run holds a script, it fits into so many levels. -/
def Start.Fits (d : Nat) (start : Start) : Prop :=
  ∀ ops, decode? start.invocation.msg = some ops → Script.Fits d ops

/-- What is known of an operation once the message of the run has been read. -/
structure Moment.Known (host : Host) (m : Moment) : Prop where
  host_eq : m.setting.host = host
  writes : m.setting.nested.Writes
  fits : ∃ d, d < nestingLimit ∧ m.op.Fits d

/-- The run of a callee has three levels less. -/
theorem Moment.opened_fits {m : Moment} {start : Start} (h : m.opened = some start) {d : Nat}
    (hfits : m.op.Fits d) (hd : d < nestingLimit) : ∃ d', d = d' + 3 ∧ start.Fits d' := by
  rcases m.opened_decodes h hfits hd with ⟨_, _, _, ops, d', -, hlevels, hops, hdecode⟩
  refine ⟨d', hlevels, fun ops' hdecode' => ?_⟩
  rw [hdecode] at hdecode'
  cases hdecode'
  exact hops

section Levels

variable {host : Host} {querier : Querier} {nested : Engine} {above : List Moment} {start : Start}
  {below : List Moment → Start → List Point} {d : Nat} {text : String} {gas : Report} {w' : World}

/-- What is known of the run is known of its operations, which have not more levels than its script.
    -/
theorem moments_known (hnested : nested.Writes) (hfits : start.Fits d) (hd : d < nestingLimit)
    {ops : List Op} (hdecode : decode? start.invocation.msg = some ops) {used : Report} {w : World}
    {m : Moment} (hm : m ∈ moments ⟨host, nested, start.invocation, start.call⟩ used ops w) :
    m.op.Fits d ∧ m.Known host := by
  rcases moments_op m hm with ⟨hsetting, hop⟩
  have hmfits : m.op.Fits d := hfits ops hdecode m.op hop
  refine ⟨hmfits, ?_, ?_, d, hd, hmfits⟩
  · rw [hsetting]
  · rw [hsetting]
    exact hnested

theorem pointsOver_known (hnested : nested.Writes) (hfits : start.Fits d) (hd : d < nestingLimit)
    (hbelow : ∀ above start' d', d' < nestingLimit → Start.Fits d' start' →
      ∀ p ∈ below above start', p.now.Known host) :
    ∀ p ∈ pointsOver host nested below above start, p.now.Known host := by
  intro p hp
  rcases mem_pointsOver_iff.mp hp with ⟨ops, hdecode, m, hm, hpoint⟩
  rcases moments_known hnested hfits hd hdecode hm with ⟨hmfits, hknown⟩
  rcases hpoint with rfl | ⟨start', hopened, hinner⟩
  · exact hknown
  · rcases m.opened_fits hopened hmfits hd with ⟨d', hlevels, hfits'⟩
    exact hbelow _ start' d' (by omega) hfits' p hinner

/-- The same is known of the operations at all levels. -/
theorem pointsAt_known (level : Nat) (hfits : start.Fits d) (hd : d < nestingLimit) :
    ∀ p ∈ pointsAt host level above start, p.now.Known host := by
  induction level generalizing above start d with
  | zero =>
      exact pointsOver_known refusal_writes hfits hd
        fun _ _ _ _ _ p hp => absurd hp List.not_mem_nil
  | succ level ih =>
      exact pointsOver_known (engineAt_writes host level) hfits hd
        fun _ _ _ hd' hfits' => ih hfits' hd'

/-! ## Failures -/

/-- The failure comes from the operation: it asks for it, or the querier that it asks does. -/
def Moment.Raises (m : Moment) (text : String) : Prop :=
  m.op = .fail text ∨ ∃ request gasLimit ctx meter, m.op = .query request gasLimit ∧
    m.world.registry.lookup m.setting.call = .ok ctx ∧
    (ctx.binding.querier m.world.chain (Utf8.encode request)).run (.new (some gasLimit)) =
      (.ok (.error (.engine text)), meter)

/-- The failure comes from an operation at one of the points. -/
def Raised (points : List Point) (text : String) : Prop := ∃ p ∈ points, p.now.Raises text

/-- Whatever an operation at one of the points fails with comes from one of them. -/
def Traced (points : List Point) : Prop :=
  ∀ p ∈ points, ∀ text gas w', p.now.performed = (.ok (.error (.engine text), gas), w') →
    Raised points text

/-- An inquiry that is refused with a failure is a query. -/
theorem Moment.asked_raises {m : Moment} (hcap : m.setting.host.capabilities = .inMemory querier)
    {a : Asked} (ha : a ∈ m.asked) (h : a.Blamed m.setting.host (.engine text)) :
    m.Raises text := by
  rcases h with ⟨gas, w', h⟩
  rcases Host.answer_engine hcap h ⟨text, rfl⟩ with
    ⟨call, request, gasLimit, ctx, meter, hq, hlive, hrun⟩
  rcases Moment.asked_query ha hq with ⟨shown, hop, rfl, rfl, hworld⟩
  rw [hworld] at hlive hrun
  exact .inr ⟨shown, gasLimit, ctx, meter, hop, hlive, hrun⟩

/-- A failure comes from the operation itself, or from the run that it has started. -/
theorem Moment.Known.raises_cases {m : Moment} (h : m.Known host)
    (hcap : host.capabilities = .inMemory querier)
    (hperformed : m.performed = (.ok (.error (.engine text), gas), w')) :
    m.Raises text ∨ ∃ start gas w', m.opened = some start ∧
      m.setting.nested start.invocation start.call start.world =
        (.ok (.error (.engine text), gas), w') := by
  have hengine : HostError.OfEngine (.engine text) := ⟨text, rfl⟩
  rw [← h.host_eq] at hcap
  -- Of all reasons for a refusal, few are failures of an engine.
  rcases Moment.performed_cases hperformed with ⟨a, ha, hblamed⟩ | hown | hnested
  · exact .inl (m.asked_raises hcap ha hblamed)
  · cases hown with
    | fail hop => exact .inl (.inl hop)
    | dead hdead =>
        cases World.code_of_dead hdead
    | storeless _ hstoreless =>
        rcases storeAddressFor_refuses hstoreless with hroutine | hdead
        · exact absurd hengine hroutine.2
        · cases World.code_of_dead hdead
    | unreadable hopened hrun hunreadable =>
        -- A callee that has come to an end has written an output that can be read.
        rcases h.fits with ⟨d, hd, hfits⟩
        rcases Moment.nested_outputs h.writes hfits hd hopened hrun with ⟨n, hread, -⟩
        rw [hread] at hunreadable
        cases hunreadable
  · exact .inr hnested

/-- A run whose operations are accounted for fails with what comes from one of them, unless its
    message is no script. -/
theorem engineOver_raises (htraced : Traced (pointsOver host nested below above start))
    (h : engineOver host nested start.invocation start.call start.world =
      (.ok (.error (.engine text), gas), w')) :
    decode? start.invocation.msg = none ∨
      Raised (pointsOver host nested below above start) text := by
  rcases engineOver_refused h with ⟨hdecode, -⟩ | hgas |
    ⟨ops, hdecode, m, hm, gas', w₁, hperformed⟩
  · exact .inl hdecode
  · cases hgas
  · have hpoint : ⟨m, above⟩ ∈ pointsOver host nested below above start :=
      mem_pointsOver_iff.mpr ⟨ops, hdecode, m, hm, .inl rfl⟩
    exact .inr (htraced _ hpoint text gas' w₁ hperformed)

/-- The operations of a run are accounted for if those of the runs below it are. -/
theorem pointsOver_traced (hcap : host.capabilities = .inMemory querier) (hnested : nested.Writes)
    (hfits : start.Fits d) (hd : d < nestingLimit)
    (hbelow : ∀ above start' d', d = d' + 3 → Start.Fits d' start' →
      Traced (below above start') ∧ ∀ text gas w',
        nested start'.invocation start'.call start'.world =
          (.ok (.error (.engine text), gas), w') →
        decode? start'.invocation.msg = none ∨ Raised (below above start') text) :
    Traced (pointsOver host nested below above start) := by
  intro p hp text gas w' hperformed
  rcases mem_pointsOver_iff.mp hp with ⟨ops, hdecode, m, hm, hpoint⟩
  rcases moments_known hnested hfits hd hdecode hm with ⟨hmfits, hknown⟩
  -- What comes from a run below comes from the run.
  have hmem (start' : Start) (hopened : m.opened = some start') :
      Raised (below (m :: above) start') text →
        Raised (pointsOver host nested below above start) text := by
    rintro ⟨p', hp', hraises⟩
    exact ⟨p', mem_pointsOver_iff.mpr ⟨ops, hdecode, m, hm, .inr ⟨start', hopened, hp'⟩⟩, hraises⟩
  rcases hpoint with rfl | ⟨start', hopened, hinner⟩
  · rcases hknown.raises_cases hcap hperformed with hraises | ⟨start', gas', w₁, hopened, hrun⟩
    · exact ⟨_, hp, hraises⟩
    · rcases m.opened_fits hopened hmfits hd with ⟨d', hlevels, hfits'⟩
      rw [(moments_op m hm).1] at hrun
      -- The run below has failed, so its own points account for the failure, or its message does.
      rcases (hbelow (m :: above) start' d' hlevels hfits').2 text gas' w₁ hrun with
        hnone | hraised
      · -- The callee has been handed a script.
        rcases m.opened_decodes hopened hmfits hd with ⟨_, _, _, _, _, -, -, -, hsome⟩
        rw [hnone] at hsome
        cases hsome
      · exact hmem start' hopened hraised
  · rcases m.opened_fits hopened hmfits hd with ⟨d', hlevels, hfits'⟩
    exact hmem start' hopened
      ((hbelow (m :: above) start' d' hlevels hfits').1 p hinner text gas w' hperformed)

/-- What a run of any level fails with comes from its points, unless its message is no script. -/
theorem engineAt_raises (level : Nat) (htraced : Traced (pointsAt host level above start))
    (h : engineAt host level start.invocation start.call start.world =
      (.ok (.error (.engine text), gas), w')) :
    decode? start.invocation.msg = none ∨ Raised (pointsAt host level above start) text := by
  cases level with
  | zero => exact engineOver_raises htraced h
  | succ level => exact engineOver_raises htraced h

/-- So the operations at all levels are accounted for, if there are enough levels of calls. -/
theorem pointsAt_traced (hcap : host.capabilities = .inMemory querier) (level : Nat)
    (hfits : start.Fits d) (hd : d < nestingLimit) (hlevel : d ≤ level + 2) :
    Traced (pointsAt host level above start) := by
  induction level generalizing above start d with
  | zero =>
      -- A call would take three levels.
      refine pointsOver_traced hcap refusal_writes hfits hd fun _ _ d' hd' _ => ?_
      omega
  | succ level ih =>
      refine pointsOver_traced hcap (engineAt_writes host level) hfits hd
        fun above' start' d' hd' hfits' => ?_
      have htraced : Traced (pointsAt host level above' start') :=
        ih hfits' (by omega) (by omega)
      exact ⟨htraced, fun text gas w' hrun => engineAt_raises level htraced hrun⟩

end Levels

end Script

namespace Host

/-- A run of an entry point, on messages and outputs that are written and read at every level. All
    scripts of calls in the message are read back from messages of their own, so every callee reads
    the script of its call, and whatever a callee outputs is read by its caller. If an operation
    or an inquiry fails at any level, the failure comes from an operation that asks for it, or from
    a querier that one of them asks. If the whole run fails, its own message may also have been no
    script. -/
theorem run_reencodes {host : Host} {querier : Querier}
    (hcap : host.capabilities = .inMemory querier) (binding : Binding) (request : Request)
    (w : World) :
    (∀ ops, Script.decode? request.msg = some ops → ∀ inner, Script.Inside inner ops →
      Script.decode? (Script.encode inner) = some inner) ∧
    (∀ p ∈ host.points binding request w, ∀ start, p.now.opened = some start →
      (∃ contract delegate funds ops, p.now.op = .call contract delegate funds ops ∧
        Script.decode? start.invocation.msg = some ops) ∧
      ∀ output gas w', p.now.setting.nested start.invocation start.call start.world =
        (.ok (.ok output, gas), w') → ∃ n, Script.nestedOutput output = .ok n) ∧
    (∀ p ∈ host.points binding request w, ∀ text,
      (∀ gas w', p.now.performed = (.ok (.error (.engine text), gas), w') →
        Script.Raised (host.points binding request w) text) ∧
      ∀ a ∈ p.now.asked, a.Blamed host (.engine text) → p.now.Raises text) ∧
    ∀ text gas w', host.run (Script.engine host) binding request w =
        (.ok (.error (.engine text), gas), w') →
      Script.decode? request.msg = none ∨ Script.Raised (host.points binding request w) text := by
  -- The reader has taken one level for the list that the script is.
  have hd : nestingLimit - 1 < nestingLimit := by decide
  have hfits : Script.Start.Fits (nestingLimit - 1)
      ⟨host.topInvocation request, (w.register binding).1, (w.register binding).2⟩ :=
    fun ops hdecode => Script.fits_of_decode? hdecode
  have hknown : ∀ p ∈ host.points binding request w, p.now.Known host :=
    Script.pointsAt_known nestingLimit hfits hd
  have htraced : Script.Traced (host.points binding request w) :=
    Script.pointsAt_traced hcap nestingLimit hfits hd (by decide)
  refine ⟨fun ops hdecode inner hinside => Script.decode?_inside hdecode hinside, ?_, ?_, ?_⟩
  · intro p hp start hopened
    rcases (hknown p hp).fits with ⟨d, hlimit, hop⟩
    rcases Script.Moment.opened_decodes hopened hop hlimit with
      ⟨contract, delegate, funds, ops, _, hcall, -, -, hdecode⟩
    refine ⟨⟨contract, delegate, funds, ops, hcall, hdecode⟩, fun output gas w' hrun => ?_⟩
    rcases Script.Moment.nested_outputs (hknown p hp).writes hop hlimit hopened hrun with
      ⟨n, hread, -⟩
    exact ⟨n, hread⟩
  · intro p hp text
    refine ⟨htraced p hp text, fun a ha hblamed => ?_⟩
    have hhost := (hknown p hp).host_eq
    rw [← hhost] at hcap hblamed
    exact Script.Moment.asked_raises hcap ha hblamed
  · intro text gas w' h
    rw [run_apply] at h
    have hrefused : (Script.engine host (host.topInvocation request) (w.register binding).1
        (w.register binding).2).1 = .ok (.error (.engine text), gas) := congrArg Prod.fst h
    exact Script.engineAt_raises nestingLimit htraced (Prod.ext hrefused rfl)

/-- A script that calls another contract, whose script fails after a write. -/
def Request.failing : Request :=
  .executing [.call "b" false [] [.set "k" "v", .fail "stop"]] 100000

/-- The callee reads its script and fails as it asks for. -/
theorem run_reencodes_of_failing :
    Script.decode? (Script.encode [.set "k" "v", .fail "stop"]) =
        some [.set "k" "v", .fail "stop"] ∧
      Script.Raised (Host.small.points .small .failing .pair) "stop" := by
  have hcap : Host.small.capabilities = .inMemory (.answering 1) := rfl
  -- The message is too long to be evaluated, so it is read back by the general theorem.
  have hleaves : Script.Fits 2 [.set "k" "v", .fail "stop"] := by
    intro op hop
    rcases List.mem_cons.mp hop with rfl | hop
    · exact .leaf trivial (Nat.le_refl 2)
    · rw [List.mem_singleton.mp hop]
      exact .leaf trivial (Nat.le_refl 2)
  have hdecode : Script.decode? Request.failing.msg =
      some [.call "b" false [] [.set "k" "v", .fail "stop"]] := by
    refine Script.decode?_encode fun op hop => ?_
    rw [List.mem_singleton.mp hop]
    exact (Op.Fits.call (.inl rfl) hleaves).mono (by decide)
  have hrefused : (Host.small.run (Script.engine .small) .small .failing .pair).1 =
      .ok (.error (.engine "stop"), ⟨1, 2060⟩) := by decide +kernel
  rcases run_reencodes hcap .small .failing .pair with ⟨hinside, -, -, hfails⟩
  have hrun := Prod.eta (Host.small.run (Script.engine .small) .small .failing .pair)
  rw [hrefused] at hrun
  refine ⟨hinside _ hdecode _ (.here List.mem_cons_self), ?_⟩
  rcases hfails _ _ _ hrun.symm with hnone | hraised
  · rw [hdecode] at hnone
    cases hnone
  · exact hraised

end Host

/-- A binding with a querier that refuses as an engine would. -/
def Binding.refusing : Binding :=
  { Binding.small with querier := .scripted [] .ignore (.refuse (.engine "x")) }

/-- So it is not always a script that asks for the failure. -/
theorem Host.run_fails_without_fail :
    ¬ ∀ (host : Host) (querier : Querier) (binding : Binding) (request : Request) (w : World)
      (text : String) (gas : Report) (w' : World), host.capabilities = .inMemory querier →
      host.run (Script.engine host) binding request w = (.ok (.error (.engine text), gas), w') →
      Script.decode? request.msg = none ∨
        ∃ p ∈ host.points binding request w, ∃ message, p.now.op = .fail message := by
  intro h
  have hrefused : (Host.small.run (Script.engine .small) .refusing
      (.executing [.query "q" 10] 100000) .small).1 =
      .ok (.error (.engine "x"), ⟨0, 0⟩) := by decide +kernel
  have hrun := Prod.eta (Host.small.run (Script.engine .small) .refusing
    (.executing [.query "q" 10] 100000) .small)
  rw [hrefused] at hrun
  rcases h .small (.answering 1) .refusing (.executing [.query "q" 10] 100000) .small _ _ _ rfl
    hrun.symm with hnone | ⟨p, hp, message, hop⟩
  · cases hnone
  · -- The script has one operation, and that asks something of the host.
    have hasks : ∀ p ∈ Host.small.points .refusing (.executing [.query "q" 10] 100000) .small,
        p.now.asked.length = 1 := by decide +kernel
    have hone := hasks p hp
    unfold Script.Moment.asked at hone
    rw [hop] at hone
    cases hone

end ContractHost
