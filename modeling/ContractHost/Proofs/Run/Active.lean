import ContractHost.Proofs.Chain.Meters
import ContractHost.Proofs.Host.Cursors
import ContractHost.Proofs.Host.Refusals
import ContractHost.Proofs.Registry.Linked
import ContractHost.Proofs.Run.Dialogue
import ContractHost.Proofs.Run.Points

/-!
# Calls in Progress

While a run is going on, the calls it has made are live, and so is its own. This file says that
those are all the calls that it keeps live, and that they form a chain: wherever the run has got
to, and whatever inquiry it is about to make there, what is live and was not live before is the
call in progress and the calls that it lies below, each a child of the next one.

The chain is handed down. A call that is opened is registered below the call in progress, which
has no child at that moment, and it is released before anything else is registered there. Since
an operation resolves one call at most, and does so with its last inquiry, all inquiries of an
operation are made in the same registry.

So the call of an inquiry is always live. A cursor is asked for only after it has been opened, in
the same operation, and it stays there. Nothing can be missing for a run, then, but the contract
of a nested call, or what a querier misses.

## Main definitions

* `Script.Point.calls`: The calls in progress at a point.
* `Asked.Sound`: An inquiry that is made for a live call, and for a cursor that is there.
* `Script.Moment.Misses`: What can be missing for an operation.

## Theorems

* `Script.inherited_stacked`: The chain of calls is handed down.
* `Script.Moment.asked_sound`: The inquiries of an operation.
* `Script.Moment.asked_misses`: An inquiry that misses something misses what its operation can.
-/

namespace ContractHost

namespace Script

/-- The calls in progress at a point, the innermost first. -/
def Point.calls (p : Point) : List Handle :=
  p.now.setting.call :: p.above.map fun m => m.setting.call

/-- One call more is in progress in a run that has been started. -/
theorem opened_stacked {before : Registry} {above : List Handle} {m : Moment} {start : Start}
    (hm : m.world.registry.Consistent) (hroom : m.world.registry.size < Word.top)
    (hdepth : above.length + 1 < UInt32.size)
    (hstacked : before.Stacked m.world.registry (m.setting.call :: above))
    (h : m.opened = some start) :
    before.Stacked start.world.registry (start.call :: m.setting.call :: above) := by
  rcases opened_cases h with ⟨_, _, _, _, request, child, gas, -, -, -, hopen, hcall, -⟩
  rcases Host.openCall_registers hopen with
    ⟨-, hnone⟩ | ⟨ctx, found, store, c, c', checksum, used, hlive, -, hchild, hopened⟩
  · exact absurd rfl (hnone child gas)
  · cases hchild
    rw [hcall, hopened]
    exact hstacked.push hm hroom (Registry.lookup_eq_ok_iff.mp hlive) hdepth found.binding

/-- The chain of calls is handed down, for as many levels as there are. -/
theorem inherited_stacked (host : Host) (before : Registry) :
    Inherited host fun n above call w =>
      before.Stacked w.registry (call :: above.map fun m => m.setting.call) ∧
        above.length + n = nestingLimit where
  settled h hsettled := ⟨h.1.of_settled hsettled, h.2⟩
  opened := by
    intro n above m start _ hm hroom h hopened
    -- A level below is left, and levels are far fewer than depths.
    have hlevels := h.2
    have hdepth : (above.map fun m => m.setting.call).length + 1 < UInt32.size := by
      rw [List.length_map]
      unfold nestingLimit at hlevels
      unfold UInt32.size
      omega
    refine ⟨opened_stacked hm hroom hdepth h.1 hopened, ?_⟩
    rw [List.length_cons]
    omega

/-- What asks on behalf of a call is its own querier. The one of the run itself is given with the
    run, and a nested call gets that of the capabilities. -/
theorem inherited_querier {host : Host} {querier : Querier}
    (hcap : host.capabilities = .inMemory querier) (first : Querier) :
    Inherited host fun _ _ call w =>
      ∃ ctx, w.registry.lookup call = .ok ctx ∧ ctx.binding.querier ∈ [first, querier] where
  settled := by
    rintro n above call w w' ⟨ctx, hlive, hquerier⟩ hsettled
    refine ⟨ctx, ?_, hquerier⟩
    rw [Registry.lookup_eq_ok_iff, hsettled.calls]
    exact Registry.lookup_eq_ok_iff.mp hlive
  opened := by
    intro n above m start hhost _ _ _ hopened
    rcases opened_cases hopened with ⟨_, _, _, _, request, child, gas, -, -, -, hopen, hcall, -⟩
    rcases Host.openCall_registers hopen with
      ⟨-, hnone⟩ | ⟨ctx, found, store, c, c', checksum, used, -, hfound, hchild, hregistry⟩
    · exact absurd rfl (hnone child gas)
    · cases hchild
      rw [hhost, hcap] at hfound
      refine ⟨m.world.registry.contextFor found.binding (some ctx.handle) ctx.childDepth, ?_, ?_⟩
      · rw [hregistry, hcall]
        exact Registry.lookup_insert_self _ _ _ _
      · change found.binding.querier ∈ _
        rw [Capabilities.inMemory_resolves hfound]
        exact List.mem_cons_of_mem _ (List.mem_singleton_self _)

end Script

/-! ## The inquiries of an operation -/

/-- The inquiry is made for an operation of a call, in a world with a given registry, and if it is
    for a cursor, the cursor is there. -/
structure Asked.Sound (op : Op) (call : Handle) (ctx : Context) (registry : Registry)
    (a : Asked) : Prop where
  serves : a.inquiry.Serves op
  call_eq : a.inquiry.call = call
  registry_eq : a.world.registry = registry
  cursor : ∀ cursor, a.inquiry = .next cursor →
    ∃ c, a.world.cursorAt ctx.serial cursor.number = some c

/-- An inquiry that does not move a cursor is sound if it serves the operation. -/
theorem Asked.sound_of_not_steps {op : Op} {call : Handle} {ctx : Context} {w : World}
    {q : Inquiry} (hserves : q.Serves op) (hcall : q.call = call) (hq : ¬ q.Steps) :
    Asked.Sound op call ctx w.registry ⟨q, w⟩ where
  serves := hserves
  call_eq := hcall
  registry_eq := rfl
  cursor := by
    intro cursor heq
    cases heq
    exact absurd trivial hq

namespace Script

variable {α : Type} {host : Host} {nested : Engine} {op : Op} {call : Handle} {ctx : Context}

/-- A scan asks for the cursor that it has opened, and that cursor stays there. -/
theorem asked_drained {cursor : CursorId} {next : Metered (List Record) → Dialogue α}
    (hcall : cursor.call = call) (hnext : ∀ r w, (next r).asked host nested w = [])
    (steps : Nat) (gas : Report) {w : World}
    (hcursor : ∃ c, w.cursorAt ctx.serial cursor.number = some c) :
    ∀ a ∈ (drained cursor steps gas next).asked host nested w,
      a.Sound op call ctx w.registry := by
  induction steps generalizing gas next w with
  | zero =>
      rw [drained, hnext]
      exact fun a ha => absurd ha List.not_mem_nil
  | succ steps ih =>
      have hfirst : Asked.Sound op call ctx w.registry ⟨.next cursor, w⟩ := by
        refine ⟨trivial, hcall, rfl, fun cursor' heq => ?_⟩
        cases heq
        exact hcursor
      intro a ha
      rw [drained, Dialogue.asked] at ha
      rcases List.mem_cons.mp ha with rfl | ha
      · exact hfirst
      · rcases hstep : host.answer (.next cursor) w with ⟨p | ⟨e | _ | e, used⟩, w'⟩
        · rw [hstep] at ha
          exact absurd ha List.not_mem_nil
        · rw [hstep] at ha
          dsimp only at ha
          rw [hnext] at ha
          exact absurd ha List.not_mem_nil
        · rw [hstep] at ha
          dsimp only at ha
          rw [hnext] at ha
          exact absurd ha List.not_mem_nil
        · -- The step has left the cursor there, so the walk goes on in the same way.
          rw [hstep] at ha
          have hretains := Host.next_retains host ctx.serial cursor.number cursor w
          rw [show (host.next cursor w) = _ from hstep] at hretains
          rcases hcursor with ⟨c, hc⟩
          have hrest := ih (fun r w => hnext _ w) (gas + used) (hretains.cursor c hc) a ha
          have hregistry : w'.registry = w.registry := hretains.registry
          rw [hregistry] at hrest
          exact hrest

theorem asked_resolving {request : ContractCall} {payGas : Report}
    (hop : ∃ delegate funds ops, op = .call request.contract delegate funds ops)
    {next : Metered ResolvedCall → Dialogue α} (hnext : ∀ r w, (next r).asked host nested w = [])
    (w : World) : ∀ a ∈ (resolving call request payGas next).asked host nested w,
      a.Sound op call ctx w.registry := by
  intro a ha
  rw [resolving, Dialogue.asked] at ha
  dsimp only at ha
  cases hstore : Host.storeAddressFor call request w with
  | error e =>
      rw [hstore] at ha
      dsimp only at ha
      rw [hnext] at ha
      exact absurd ha List.not_mem_nil
  | ok store =>
      rw [hstore] at ha
      dsimp only at ha
      rw [Dialogue.asked_last (fun _ _ => hnext _ _), List.mem_singleton] at ha
      rw [ha]
      exact Asked.sound_of_not_steps hop rfl (fun h => h)

theorem asked_opening {request : ContractCall}
    (hop : ∃ delegate funds ops, op = .call request.contract delegate funds ops)
    {next : Metered ResolvedCall → Dialogue α} (hnext : ∀ r w, (next r).asked host nested w = [])
    (w : World) : ∀ a ∈ (opening call request next).asked host nested w,
      a.Sound op call ctx w.registry := by
  intro a ha
  unfold opening paid at ha
  split at ha
  · exact asked_resolving hop hnext w a ha
  · rw [Dialogue.asked] at ha
    rcases List.mem_cons.mp ha with rfl | ha
    · exact Asked.sound_of_not_steps trivial rfl (fun h => h)
    · rcases hpay : host.answer (.transfer call request.contract request.sender request.funds) w
        with ⟨p | ⟨e | paid, payGas⟩, w'⟩
      · rw [hpay] at ha
        exact absurd ha List.not_mem_nil
      · rw [hpay] at ha
        dsimp only at ha
        rw [hnext] at ha
        exact absurd ha List.not_mem_nil
      · -- Coins do not touch the registry.
        rw [hpay] at ha
        have hsame := host.answer_registry
          (q := .transfer call request.contract request.sender request.funds) (fun h => h) w
        rw [hpay] at hsame
        rw [← show w'.registry = w.registry from hsame]
        exact asked_resolving hop hnext w' a ha

/-- All inquiries of an operation are made for its call, in the registry that it begins in, and
    for cursors that are there. -/
theorem Moment.asked_sound {m : Moment}
    (hlive : m.world.registry.lookup m.setting.call = .ok ctx) :
    ∀ a ∈ m.asked, a.Sound m.op m.setting.call ctx m.world.registry := by
  rcases m with ⟨s, used, op, w⟩
  dsimp only at hlive ⊢
  unfold Moment.asked
  dsimp only
  -- Most operations make one inquiry, and it is not for a cursor.
  have hone : ∀ q : Inquiry, q.Serves op → q.call = s.call → ¬ q.Steps →
      ∀ a ∈ [(⟨q, w⟩ : Asked)], a.Sound op s.call ctx w.registry := by
    intro q hserves hcall hq a ha
    rw [List.mem_singleton.mp ha]
    exact Asked.sound_of_not_steps hserves hcall hq
  cases op with
  | set key value =>
      rw [talk, Dialogue.asked_last (fun _ _ => rfl)]
      exact hone _ trivial rfl (fun h => h)
  | get key =>
      rw [talk, Dialogue.asked_last (fun _ _ => rfl)]
      exact hone _ trivial rfl (fun h => h)
  | delete key =>
      rw [talk, Dialogue.asked_last (fun _ _ => rfl)]
      exact hone _ trivial rfl (fun h => h)
  | scan start stop descending =>
      intro a ha
      rw [talk, Dialogue.asked] at ha
      rcases List.mem_cons.mp ha with rfl | ha
      · exact Asked.sound_of_not_steps trivial rfl (fun h => h)
      · -- If the cursor has been opened, everything else that is asked is a step of it.
        revert ha
        generalize hopened : s.host.answer _ w = opened
        rcases opened with ⟨p | ⟨e | cursor, gas⟩, w'⟩
        · exact fun ha => absurd ha List.not_mem_nil
        · exact fun ha => absurd ha List.not_mem_nil
        · intro ha
          rcases Host.scan_ok_cursor hopened hlive with ⟨hcall, hregistry, hcursor⟩
          rw [← hregistry]
          exact asked_drained hcall (fun _ _ => rfl) _ gas hcursor a ha
  | call contract delegate funds ops =>
      rw [talk, Dialogue.asked]
      dsimp only
      rw [hlive]
      dsimp only
      refine asked_opening ⟨delegate, funds, ops, rfl⟩ (fun r w => ?_) w
      rcases r with ⟨e | child, gas⟩
      · rfl
      · dsimp only
        rw [Dialogue.asked]
        -- The engine asks on its own account, and nothing is asked when it is done.
        rcases World.guarding child.call (s.nested _ child.call) w with ⟨p | r, w'⟩
        · rfl
        · rfl
  | query request gasLimit =>
      rw [talk, Dialogue.asked_last (fun _ _ => rfl)]
      exact hone _ ⟨request, rfl, rfl⟩ rfl (fun h => h)
  | canonicalize address =>
      rw [talk, Dialogue.asked_last (fun _ _ => rfl)]
      exact hone _ trivial rfl (fun h => h)
  | fail message => exact fun a ha => absurd ha List.not_mem_nil
  | panic message => exact fun a ha => absurd ha List.not_mem_nil

/-- In a world there is something missing for the operation, of which `e` tells: the contract that
    is called, or what one of some queriers misses. -/
def Moment.Misses (queriers : List Querier) (m : Moment) (e : HostError) (w : World) : Prop :=
  match m.op with
  | .call contract _ _ _ => w.chain.contracts.get? contract = none
  | .query text gasLimit => ∃ querier ∈ queriers, ∃ meter,
    (querier w.chain (Utf8.encode text)).run (.new (some gasLimit)) = (.ok (.error e), meter)
  | _ => False

/-- An inquiry that misses something misses what its operation can. It is neither its call nor its
    cursor. -/
theorem Moment.asked_misses {m : Moment} {querier : Querier}
    (hcap : m.setting.host.capabilities = .inMemory querier) {queriers : List Querier}
    (hlive : m.world.registry.lookup m.setting.call = .ok ctx)
    (hquerier : ctx.binding.querier ∈ queriers) {a : Asked} (ha : a ∈ m.asked)
    {e : HostError} {gas : Report} {w' : World}
    (h : m.setting.host.answer a.inquiry a.world = (.ok (.error e, gas), w'))
    (hmisses : ¬ e.Present) : m.Misses queriers e a.world := by
  rcases m.asked_sound hlive a ha with ⟨hserves, hcall, hregistry, hcursor⟩
  have hlive' : a.world.registry.lookup a.inquiry.call = .ok ctx := by
    rw [hcall, hregistry]
    exact hlive
  -- The call is live and the cursor is there, so what is missing is asked of the table or of the
  -- querier.
  rcases Host.answer_misses hcap hlive' hcursor h hmisses with
    ⟨call, contract, store, hq, habsent⟩ | ⟨call, request, gasLimit, meter, hq, hrun⟩
  · rw [hq] at hserves
    rcases hserves with ⟨delegate, funds, ops, hop⟩
    unfold Misses
    rw [hop]
    exact habsent
  · rw [hq] at hserves
    rcases hserves with ⟨text, hop, rfl⟩
    unfold Misses
    rw [hop]
    exact ⟨_, hquerier, meter, hrun⟩

end Script

end ContractHost
