import ContractHost.Proofs.Run.Active

/-!
# Who Is to Blame

A run is refused with what one of its operations is refused with, an operation with what one of
its inquiries is refused with, or the run that it has started, and so on down the levels. There
are a few reasons besides that no inquiry is to blame for: gas of the engine itself that has run
out, a message or an output that is no document, a failure that a script asks for, a call that is
not live, and a delegate call without a storage. For a live call none of them says that something
is missing. So if something is missing for a run, an inquiry of it has been refused for that.

## Main definitions

* `Asked.Blamed`: An inquiry that is refused.
* `Script.Moment.Own`: What an operation is refused with on its own account.
* `Script.Blames`: An inquiry at one of some points is refused.

## Theorems

* `Script.Moment.performed_cases`: Why an operation is refused.
* `Script.engineOver_refused`: Why a run is refused.
* `Script.engineAt_blame`: What is missing for a run, at every level.
-/

namespace ContractHost

/-- The inquiry is refused with an error. -/
def Asked.Blamed (host : Host) (e : HostError) (a : Asked) : Prop :=
  ∃ gas w', host.answer a.inquiry a.world = (.ok (.error e, gas), w')

namespace Script

variable {α : Type} {host : Host} {nested : Engine} {e : HostError}

/-! ## Operations -/

/-- An answer that is put in another form is refused with what the inquiry is refused with. -/
theorem held_last_refused {q : Inquiry} {f : Except HostError q.Answer → Except HostError Node}
    (hf : ∀ r, f r = .error e → r = .error e) {w w' : World} {gas : Report}
    (h : (Dialogue.ask q fun r => .done (f r.1, r.2)).held host nested w =
      (.ok (.error e, gas), w')) :
    ∃ a ∈ (Dialogue.ask q fun r => .done (f r.1, r.2)).asked host nested w, a.Blamed host e := by
  rw [Dialogue.asked_last (fun _ _ => rfl)]
  refine ⟨_, List.mem_singleton_self _, ?_⟩
  rw [Dialogue.held, Action.bind_apply] at h
  rcases hanswer : host.answer q w with ⟨p | ⟨r, used⟩, w''⟩
  · rw [hanswer] at h
    cases h
  · rw [hanswer] at h
    have hr : f r = .error e := congrArg Prod.fst (Except.ok.inj (congrArg Prod.fst h))
    exact ⟨used, _, by rw [hanswer, hf r hr]⟩

/-- To put an answer in another form is not refused. -/
theorem error_of_map {β : Type} {r : Except HostError α} {f : α → β} (h : r.map f = .error e) :
    r = .error e := by
  cases r with
  | error e' =>
      cases h
      rfl
  | ok a => cases h

/-- An outcome in another form is refused with what the outcome itself is refused with. -/
theorem refused_of_map {β : Type} {r : Except HostError α} {f : α → β} {used gas : Report}
    {w w' : World}
    (h : ((.ok (r.map f, used), w) : Except Panic (Metered β) × World) =
      (.ok (.error e, gas), w')) : r = .error e :=
  error_of_map (congrArg Prod.fst (Except.ok.inj (congrArg Prod.fst h)))

/-- A walk along a cursor is refused with what one of its steps is refused with. -/
theorem drained_blame {cursor : CursorId} (next : Metered (List Record) → Dialogue α)
    (steps : Nat) {gas used : Report} {w w' : World}
    (h : drain host cursor steps gas w = (.ok (.error e, used), w')) :
    ∃ a ∈ (drained cursor steps gas next).asked host nested w, a.Blamed host e := by
  induction steps generalizing gas next w with
  | zero => cases h
  | succ steps ih =>
      rw [drain, Action.bind_apply] at h
      rw [drained, Dialogue.asked]
      rcases hstep : host.next cursor w with ⟨p | ⟨e' | _ | record, gas'⟩, w''⟩
      · rw [hstep] at h
        cases h
      · rw [hstep] at h
        cases h
        exact ⟨_, List.mem_cons_self, gas', _, hstep⟩
      · rw [hstep] at h
        cases h
      · rw [hstep] at h
        dsimp only at h
        rw [Action.bind_apply] at h
        have hanswer : host.answer (.next cursor) w = (.ok (.ok (some record), gas'), w'') := hstep
        rw [hanswer]
        dsimp only
        -- The records behind are refused with the same error.
        rcases hrest : drain host cursor steps (gas + gas') w'' with ⟨p | ⟨e' | rest, gas''⟩, w₃⟩
        · rw [hrest] at h
          cases h
        · rw [hrest] at h
          cases h
          rcases ih (fun r => next (r.1.map (record :: ·), r.2)) hrest with ⟨a, ha, hblamed⟩
          exact ⟨a, List.mem_cons_of_mem _ ha, hblamed⟩
        · rw [hrest] at h
          cases h

/-- A storage is refused for a reason of the host's own, or to a call that is not live. -/
theorem storeAddressFor_refuses {call : Handle} {request : ContractCall} {w : World}
    (h : Host.storeAddressFor call request w = .error e) :
    e.Routine ∨ w.registry.lookup call = .error e := by
  unfold Host.storeAddressFor at h
  split at h
  · cases hlookup : w.registry.lookup call with
    | error e' =>
        rw [hlookup] at h
        cases h
        exact .inr rfl
    | ok ctx =>
        rw [hlookup] at h
        dsimp only [bind, Except.bind] at h
        split at h
        · cases h
        · cases h
          exact .inl ⟨nofun, nofun⟩
  · cases h

/-- Once the coins have been moved, a call is refused with what its resolution is refused with,
    unless there is no storage for it. -/
theorem resolving_cases {call : Handle} {request : ContractCall} {payGas gas : Report}
    (next : Metered ResolvedCall → Dialogue α) {w w' : World}
    (h : (resolving call request payGas .done).held host nested w = (.ok (.error e, gas), w')) :
    (∃ a ∈ (resolving call request payGas next).asked host nested w, a.Blamed host e) ∨
      Host.storeAddressFor call request w = .error e := by
  rw [resolving, Dialogue.held, Action.bind_apply, Action.get_apply] at h
  rw [resolving, Dialogue.asked]
  dsimp only at h ⊢
  cases hstore : Host.storeAddressFor call request w with
  | error e' =>
      rw [hstore] at h
      cases h
      exact .inr rfl
  | ok store =>
      rw [hstore] at h
      dsimp only at h ⊢
      rw [Dialogue.held, Action.bind_apply] at h
      rw [Dialogue.asked]
      refine .inl ⟨_, List.mem_cons_self, ?_⟩
      rcases hanswer : host.answer (.resolveCall call request.contract store) w with
        ⟨p | ⟨r, used⟩, w''⟩
      · rw [hanswer] at h
        cases h
      · rw [hanswer] at h
        cases h
        exact ⟨used, _, hanswer⟩

/-- Before its callee runs, a call is refused with what one of the two inquiries is refused with,
    unless there is no storage for it. -/
theorem opening_cases {call : Handle} {request : ContractCall} {gas : Report}
    (next : Metered ResolvedCall → Dialogue α) {w w' : World}
    (h : host.openCall call request w = (.ok (.error e, gas), w')) :
    (∃ a ∈ (opening call request next).asked host nested w, a.Blamed host e) ∨
      ∃ w₁, w₁.registry = w.registry ∧ Host.storeAddressFor call request w₁ = .error e := by
  have hheld : (opening call request .done).held host nested w = (.ok (.error e, gas), w') := by
    rw [held_opening, show (fun r => (Dialogue.done r).held host nested) = pure from rfl,
      bind_pure]
    exact h
  unfold opening paid at hheld ⊢
  split at hheld
  · next hfree =>
    rw [if_pos hfree]
    rcases resolving_cases next hheld with hblamed | hstoreless
    · exact .inl hblamed
    · exact .inr ⟨w, rfl, hstoreless⟩
  · next hfree =>
    rw [if_neg hfree]
    rw [Dialogue.held, Action.bind_apply] at hheld
    rw [Dialogue.asked]
    have hsame := host.answer_registry
      (q := .transfer call request.contract request.sender request.funds) (fun h => h) w
    rcases hpay : host.answer (.transfer call request.contract request.sender request.funds) w
      with ⟨p | ⟨e' | paid, payGas⟩, w₁⟩
    · rw [hpay] at hheld
      cases hheld
    · rw [hpay] at hheld
      cases hheld
      exact .inl ⟨_, List.mem_cons_self, _, _, hpay⟩
    · rw [hpay] at hheld hsame
      dsimp only at hheld ⊢
      rcases resolving_cases next hheld with ⟨a, ha, hblamed⟩ | hstoreless
      · exact .inl ⟨a, List.mem_cons_of_mem _ ha, hblamed⟩
      · exact .inr ⟨w₁, hsame, hstoreless⟩

/-- A scan is refused because its cursor is not opened, or with what a step of it is refused with.
    -/
theorem scan_blame {s : Setting} {used gas : Report} {start stop : Option String}
    {descending : Bool} {w w' : World}
    (h : perform s used (.scan start stop descending) w = (.ok (.error e, gas), w')) :
    ∃ a ∈ (talk s used (.scan start stop descending)).asked s.host s.nested w,
      a.Blamed s.host e := by
  rw [perform, Action.bind_apply] at h
  rw [talk, Dialogue.asked]
  dsimp only [Host.answer]
  rcases hscan : s.host.scan s.call ⟨start.map Utf8.encode, stop.map Utf8.encode⟩
    (if descending then .descending else .ascending) w with ⟨p | ⟨e' | cursor, used⟩, w₁⟩
  · rw [hscan] at h
    cases h
  · rw [hscan] at h
    cases h
    exact ⟨_, List.mem_cons_self, gas, _, hscan⟩
  · rw [hscan] at h
    dsimp only at h ⊢
    rw [Action.bind_apply, Action.get_apply] at h
    dsimp only at h
    rw [Action.bind_apply] at h
    rw [Dialogue.asked]
    rcases hdrain : drain s.host cursor (recordCount w₁ s.call + 1) used w₁ with
      ⟨p | ⟨r, used'⟩, w₂⟩
    · rw [hdrain] at h
      cases h
    · rw [hdrain] at h
      have hr : r = .error e := refused_of_map h
      rw [hr] at hdrain
      rcases drained_blame _ _ hdrain with ⟨a, ha, hblamed⟩
      exact ⟨a, List.mem_cons_of_mem _ ha, hblamed⟩

/-- An operation is refused with an error that no inquiry and no other run is to blame for. -/
inductive Moment.Own (m : Moment) : HostError → Prop
  /-- The script asks for the failure. -/
  | fail {text : String} : m.op = .fail text → Own m (.engine text)
  /-- The call that the operation is performed for is not live. -/
  | dead {e : HostError} : m.world.registry.lookup m.setting.call = .error e → Own m e
  /-- There is no storage for a callee. -/
  | storeless {request : ContractCall} {w : World} {e : HostError} :
      w.registry = m.world.registry → Host.storeAddressFor m.setting.call request w = .error e →
        Own m e
  /-- The output of a callee cannot be read. -/
  | unreadable {start : Start} {output : Bytes} {gas : Report} {w : World} {e : HostError} :
      m.opened = some start →
        m.setting.nested start.invocation start.call start.world = (.ok (.ok output, gas), w) →
          nestedOutput output = .error e → Own m e

/-- An operation of a live call misses nothing on its own account. -/
theorem Moment.Own.present {m : Moment} {ctx : Context} (h : m.Own e)
    (hlive : m.world.registry.lookup m.setting.call = .ok ctx) : e.Present := by
  cases h with
  | fail hop => exact HostError.present_of_other rfl
  | dead hdead =>
      rw [hlive] at hdead
      cases hdead
  | storeless hregistry hstoreless =>
      rcases storeAddressFor_refuses hstoreless with hroutine | hdead
      · exact hroutine.1
      · rw [hregistry, hlive] at hdead
        cases hdead
  | unreadable hopened hrun hunreadable =>
      -- An output that is no document is an error of the engine.
      unfold nestedOutput at hunreadable
      split at hunreadable
      · cases hunreadable
      · cases hunreadable
        exact HostError.present_of_other rfl

/-- An operation is refused with what one of its inquiries is refused with, on its own account, or
    with what the run that it has started is refused with. -/
theorem Moment.performed_cases {m : Moment} {w' : World} {gas : Report}
    (h : m.performed = (.ok (.error e, gas), w')) :
    (∃ a ∈ m.asked, a.Blamed m.setting.host e) ∨ m.Own e ∨
      ∃ start gas w', m.opened = some start ∧
        m.setting.nested start.invocation start.call start.world = (.ok (.error e, gas), w') := by
  rcases m with ⟨s, used, op, w⟩
  unfold Moment.performed at h
  unfold Moment.asked
  dsimp only at h ⊢
  cases op with
  | set key value =>
      rw [perform_eq] at h
      exact .inl (held_last_refused (fun r hr => error_of_map hr) h)
  | get key =>
      rw [perform_eq] at h
      exact .inl (held_last_refused (fun r hr => error_of_map hr) h)
  | delete key =>
      rw [perform_eq] at h
      exact .inl (held_last_refused (fun r hr => error_of_map hr) h)
  | scan start stop descending => exact .inl (scan_blame h)
  | call contract delegate funds ops =>
      -- The call is not live, or its callee is not opened, or the callee has run.
      rcases Moment.performed_call h with ⟨e', he, hdead⟩ | ⟨e', ctx, gas', w₁, he, hlive, hopen⟩ |
        ⟨start, output, gas', w₁, hopened, hrun, hr⟩
      · cases he
        exact .inr (.inl (.dead hdead))
      · cases he
        rw [talk, Dialogue.asked]
        dsimp only
        rw [hlive]
        rcases opening_cases _ hopen with hblamed | ⟨w₂, hregistry, hstoreless⟩
        · exact .inl hblamed
        · exact .inr (.inl (.storeless hregistry hstoreless))
      · cases output with
        | error e' =>
            cases hr
            exact .inr (.inr ⟨start, gas', w₁, hopened, hrun⟩)
        | ok output => exact .inr (.inl (.unreadable hopened hrun hr.symm))
  | query request gasLimit =>
      rw [perform_eq] at h
      exact .inl (held_last_refused (fun r hr => error_of_map (error_of_map hr)) h)
  | canonicalize address =>
      rw [perform_eq] at h
      exact .inl (held_last_refused (fun r hr => error_of_map hr) h)
  | fail message =>
      cases h
      exact .inr (.inl (.fail rfl))
  | panic message => cases h

/-! ## Scripts -/

/-- The engine has a limit of its own, so a step may also be out of gas. -/
theorem step_cases {s : Setting} {used gas : Report} {op : Op} {w w' : World}
    (h : step s used op w = (.ok (.error e, gas), w')) :
    (∃ gas w', perform s used op w = (.ok (.error e, gas), w')) ∨ e.code = .outOfGas := by
  rw [step_apply] at h
  rcases hperform : perform s used op w with ⟨p | ⟨e' | output, gas'⟩, w₁⟩
  · rw [hperform] at h
    cases h
  · rw [hperform] at h
    cases h
    exact .inl ⟨gas', _, rfl⟩
  · rw [hperform] at h
    have hover := Except.ok.inj (congrArg Prod.fst h)
    split at hover
    · cases hover
      exact .inr rfl
    · cases hover

/-- A script that is not out of gas is refused with what one of its operations is refused with. -/
theorem runOps_cases {s : Setting} {ops : List Op} {used gas : Report} {w w' : World}
    (h : runOps s used ops w = (.ok (.error e, gas), w')) :
    (∃ m ∈ moments s used ops w, ∃ gas w', m.performed = (.ok (.error e, gas), w')) ∨
      e.code = .outOfGas := by
  induction ops generalizing used gas w w' with
  | nil => cases h
  | cons op ops ih =>
      rw [runOps_cons_apply] at h
      rw [moments]
      rcases hstep : step s used op w with ⟨p | ⟨e' | output, used'⟩, w₁⟩
      · rw [hstep] at h
        cases h
      · rw [hstep] at h
        cases h
        rcases step_cases hstep with hperformed | hgas
        · exact .inl ⟨_, List.mem_cons_self, hperformed⟩
        · exact .inr hgas
      · rw [hstep] at h
        dsimp only at h ⊢
        rcases hrest : runOps s used' ops w₁ with ⟨p | ⟨r, used''⟩, w₂⟩
        · rw [hrest] at h
          cases h
        · rw [hrest] at h
          rw [refused_of_map h] at hrest
          rcases ih hrest with ⟨m, hm, hperformed⟩ | hgas
          · exact .inl ⟨m, List.mem_cons_of_mem _ hm, hperformed⟩
          · exact .inr hgas

/-! ## Runs -/

/-- The call of the operation is live. -/
def Point.Live (p : Point) : Prop :=
  ∃ ctx, p.now.world.registry.lookup p.now.setting.call = .ok ctx

/-- An inquiry of one of the points is refused with an error. -/
def Blames (host : Host) (e : HostError) (points : List Point) : Prop :=
  ∃ p ∈ points, ∃ a ∈ p.now.asked, a.Blamed host e

/-- A run is refused because its message is no script, because it is out of gas, or with what one
    of its operations is refused with. -/
theorem engineOver_refused {invocation : Invocation} {call : Handle} {gas : Report} {w w' : World}
    (h : engineOver host nested invocation call w = (.ok (.error e, gas), w')) :
    (decode? invocation.msg = none ∧ e = malformed) ∨ e.code = .outOfGas ∨
      ∃ ops, decode? invocation.msg = some ops ∧
        ∃ m ∈ moments ⟨host, nested, invocation, call⟩ .free ops (noted invocation call w),
          ∃ gas w', m.performed = (.ok (.error e, gas), w') := by
  rw [engineOver_apply] at h
  cases hdecode : decode? invocation.msg with
  | none =>
      rw [hdecode] at h
      cases h
      exact .inl ⟨rfl, rfl⟩
  | some ops =>
      right
      rw [hdecode] at h
      dsimp only at h
      rcases hrun : runOps ⟨host, nested, invocation, call⟩ .free ops (noted invocation call w)
        with ⟨p | ⟨r, used⟩, w₁⟩
      · rw [hrun] at h
        cases h
      · rw [hrun] at h
        rw [refused_of_map h] at hrun
        rcases runOps_cases hrun with hperformed | hgas
        · exact .inr ⟨ops, rfl, hperformed⟩
        · exact .inl hgas

/-- If something is missing for a run, an inquiry of one of its operations is to blame, or one of
    a run below them. -/
theorem engineOver_blame {below : List Moment → Start → List Point} {above : List Moment}
    {start : Start} {gas : Report} {w' : World} (hmisses : ¬ e.Present)
    (hbelow : ∀ m start' gas w', m.opened = some start' →
      (∀ p ∈ below (m :: above) start', p.Live) →
      nested start'.invocation start'.call start'.world = (.ok (.error e, gas), w') →
      Blames host e (below (m :: above) start'))
    (hlive : ∀ p ∈ pointsOver host nested below above start, p.Live)
    (h : engineOver host nested start.invocation start.call start.world =
      (.ok (.error e, gas), w')) :
    Blames host e (pointsOver host nested below above start) := by
  -- A message that is no script and a limit that is exceeded miss nothing, so an operation is
  -- refused.
  rcases engineOver_refused h with ⟨-, rfl⟩ | hgas |
    ⟨ops, hdecode, m, hm, gas', w₂, hperformed⟩
  · exact absurd (HostError.present_of_other rfl) hmisses
  · exact absurd (HostError.routine_of_outOfGas hgas).1 hmisses
  · have hsetting := (moments_op m hm).1
    -- The moment is a point, and so are the points of the run that it starts.
    have hpoint : ⟨m, above⟩ ∈ pointsOver host nested below above start :=
      mem_pointsOver_iff.mpr ⟨ops, hdecode, m, hm, .inl rfl⟩
    rcases hlive _ hpoint with ⟨ctx, hctx⟩
    rcases Moment.performed_cases hperformed with
      ⟨a, ha, hblamed⟩ | hown | ⟨start', gas'', w₃, hopened, hnested⟩
    · rw [hsetting] at hblamed
      exact ⟨_, hpoint, a, ha, hblamed⟩
    · exact absurd (hown.present hctx) hmisses
    · rw [hsetting] at hnested
      -- The run of the callee is refused with the error, and its points are points of this run.
      have hmem : ∀ p ∈ below (m :: above) start', p ∈ pointsOver host nested below above start :=
        fun p hp => mem_pointsOver_iff.mpr ⟨ops, hdecode, m, hm, .inr ⟨start', hopened, hp⟩⟩
      rcases hbelow m start' gas'' w₃ hopened (fun p hp => hlive p (hmem p hp)) hnested with
        ⟨p, hp, hblamed⟩
      exact ⟨p, hmem p hp, hblamed⟩

/-- If something is missing for a run, an inquiry at one of its points is to blame. -/
theorem engineAt_blame (hmisses : ¬ e.Present) (level : Nat) {above : List Moment} {start : Start}
    (hlive : ∀ p ∈ pointsAt host level above start, p.Live) {gas : Report} {w' : World}
    (h : engineAt host level start.invocation start.call start.world =
      (.ok (.error e, gas), w')) :
    Blames host e (pointsAt host level above start) := by
  induction level generalizing above start gas w' with
  | zero =>
      refine engineOver_blame hmisses (fun m start' gas w' hopened hlive h => ?_) hlive h
      -- No script is nested below the last level, and what is refused there is malformed.
      cases h
      exact absurd (HostError.present_of_other rfl) hmisses
  | succ level ih =>
      exact engineOver_blame hmisses (fun m start' gas w' hopened hlive h => ih hlive h) hlive h

end Script

end ContractHost
