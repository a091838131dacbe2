import ContractHost.Proofs.Chain.Meters
import ContractHost.Proofs.Host.Cursors
import ContractHost.Proofs.Run.Moments
import ContractHost.Proofs.Run.Release

/-!
# What a Run Reports

A run reports two amounts of gas. One is what was charged on the host's side, the other is
what was spent inside the engine. Both are put together step by step from the reports of the
requests, of the nested calls and of the operations themselves, and every sum is clamped.

In the end nothing is lost and nothing is counted twice. What is reported for the host's
side is what the meter of the root call went up by, and with it the gas of all queries,
which run on meters of their own. What is reported for the engine is the number of
operations that were charged for. Operations and queries of nested calls count like those
of the root.

`World.Billed` says this of a stretch of a run, and two stretches in a row add up. The clamps
do no harm, because a sum of clamped numbers is the clamped sum. All calls of a tree share
the meter of the root, so a stretch also has to keep what is known about the calls that are
live and the meters they charge.

## Main definitions

* `Script.Moment.queryGas`, `Script.Moment.charged`: What a moment adds to the bill.
* `World.Charges`: A call that charges a meter if it is live.
* `World.Billed`: The gas of a stretch of a run.
* `Engine.Bills`: An engine whose runs are billed.

## Theorems

* `World.Billed.append`: Stretches add up.
* `World.withContext_billed`: A request reports what its meter went up by.
* `Host.callContract_billed`: A nested call.
* `Script.runOps_billed`: A script.
* `Host.run_reports_gas`: A run of an entry point.
-/

namespace ContractHost

namespace Script

/-- The gas that is reported for the operation if it is a query. -/
def Moment.queryGas (m : Moment) : Nat :=
  match m.op, m.performed with
  | .query _ _, (.ok (_, gas), _) => gas.total.toNat
  | _, _ => 0

/-- Whether the operation gets as far as its own charge. -/
def Moment.charged (m : Moment) : Bool :=
  match m.performed with
  | (.ok (.ok _, _), _) => true
  | _ => false

/-- The gas of all queries. -/
def queryGas : List Point → Nat
  | [] => 0
  | p :: points => p.now.queryGas + queryGas points

/-- How many operations are charged for. -/
def chargedCount (points : List Point) : Nat := points.countP fun p => p.now.charged

theorem queryGas_cons (p : Point) (ps : List Point) :
    queryGas (p :: ps) = p.now.queryGas + queryGas ps := rfl

theorem queryGas_append (ps qs : List Point) :
    queryGas (ps ++ qs) = queryGas ps + queryGas qs := by
  induction ps with
  | nil => exact (Nat.zero_add (queryGas qs)).symm
  | cons p ps ih =>
      rw [List.cons_append, queryGas_cons, queryGas_cons, ih, Nat.add_assoc]

theorem chargedCount_cons (p : Point) (ps : List Point) :
    chargedCount (p :: ps) = chargedCount ps + if p.now.charged then 1 else 0 := by
  unfold chargedCount
  rw [List.countP_cons]

theorem chargedCount_append (ps qs : List Point) :
    chargedCount (ps ++ qs) = chargedCount ps + chargedCount qs := List.countP_append

end Script

namespace World

/-- What a meter has counted. -/
def consumed (id : MeterId) (w : World) : Nat := (w.chain.meter id).consumed.toNat

/-- The call charges the meter, if it is live at all. -/
def Charges (id : MeterId) (h : Handle) (w : World) : Prop :=
  ∀ ctx, w.registry.calls.get? h = some ctx → ctx.binding.meter = id

/-- A live call charges the meter that it is bound to. -/
theorem charges_of_live {w : World} {h : Handle} {ctx : Context}
    (hlive : w.registry.lookup h = .ok ctx) : Charges ctx.binding.meter h w := by
  intro ctx' hctx'
  rw [Registry.lookup_eq_ok_iff.mp hlive, Option.some.injEq] at hctx'
  rw [← hctx']

/-- The gas of a stretch of a run below a call that charges the meter. -/
structure Billed (w : World) (id : MeterId) (w' : World) (queried charged : Nat)
    (gas : Report) : Prop where
  rises : consumed id w ≤ consumed id w'
  external : gas.external = Word.clamp (consumed id w' - consumed id w + queried)
  cost : gas.cost = Word.clamp charged
  keeps : ∀ h, Charges id h w → Charges id h w'

namespace Billed

variable {id : MeterId} {w w' w'' : World} {q q' n n' : Nat} {gas used : Report}

/-- A stretch that moves no meter costs nothing. -/
theorem free (h : ∀ k, Charges id k w → Charges id k w')
    (hmeter : consumed id w' = consumed id w) : w.Billed id w' 0 0 .free where
  rises := Nat.le_of_eq hmeter.symm
  external := by rw [hmeter, Nat.sub_self]; rfl
  cost := rfl
  keeps := h

theorem refl (id : MeterId) (w : World) : w.Billed id w 0 0 .free := free (fun _ h => h) rfl

/-- Two stretches in a row add up, and so do their reports. -/
theorem append (h : w.Billed id w' q n used) (h' : w'.Billed id w'' q' n' gas) :
    w.Billed id w'' (q + q') (n + n') (used + gas) where
  rises := Nat.le_trans h.rises h'.rises
  external := by
    have hrise := h.rises
    have hrise' := h'.rises
    change Word.add used.external gas.external = _
    -- The meter has risen in both stretches, so the two rises are the rise over both.
    rw [h.external, h'.external, Word.add_clamp]
    congr 1
    omega
  cost := by
    change Word.add used.cost gas.cost = _
    rw [h.cost, h'.cost, Word.add_clamp]
  keeps k hk := h'.keeps k (h.keeps k hk)

/-- A free report adds nothing to another. -/
theorem add_free (r : Report) : r + .free = r := by
  change Report.mk (Word.add r.cost 0) (Word.add r.external 0) = r
  unfold Word.add
  rw [UInt64.toNat_zero, Nat.add_zero, Nat.add_zero, Word.clamp_toNat, Word.clamp_toNat]

/-- A stretch that is free adds nothing. -/
theorem append_free (h : w.Billed id w' q n gas) (h' : w'.Billed id w'' 0 0 .free) :
    w.Billed id w'' q n gas := by
  have happend := h.append h'
  rw [add_free] at happend
  exact happend

end Billed

/-! ## Requests -/

/-- A request reports what its meter went up by. -/
theorem withContext_billed {α : Type} {id : MeterId} {h : Handle}
    {serve : Context → World.Attempt α} {w w' : World} {r : Except HostError α} {gas : Report}
    (hcharges : Charges id h w) (hx : withContext h serve w = (.ok (r, gas), w'))
    (hrises : w.chain.MetersRise w'.chain) (hkeeps : ∀ k, Charges id k w → Charges id k w') :
    w.Billed id w' 0 0 gas := by
  cases hlookup : w.registry.lookup h with
  | error e =>
      rw [withContext_dead serve hlookup] at hx
      cases hx
      exact .refl id w
  | ok ctx =>
      have hmeter := hcharges ctx (Registry.lookup_eq_ok_iff.mp hlookup)
      rw [withContext_live serve hlookup] at hx
      rcases hserve : serve ctx w with ⟨p | served, t⟩
      · rw [hserve] at hx
        cases hx
      · -- What is reported is the rise of the meter of the call, which is the one that is followed.
        rw [hserve] at hx
        cases hx
        refine ⟨hrises id, ?_, rfl, hkeeps⟩
        unfold meterOf
        rw [hmeter, Nat.add_zero]
        rfl

/-- A request that leaves the registry alone leaves the meters of the calls alone. -/
theorem Calm.keeps {Q : Chain → Chain → Prop} {id : MeterId} {w w' : World}
    (h : Calm Q w w') (k : Handle) (hk : Charges id k w) : Charges id k w' := by
  unfold Charges
  rw [h.registry]
  exact hk

/-- A request that leaves the registry alone. -/
theorem withContext_billed_of_calm {α : Type} {id : MeterId} {h : Handle}
    {serve : Context → World.Attempt α} {w w' : World} {r : Except HostError α} {gas : Report}
    (hcharges : Charges id h w) (hx : withContext h serve w = (.ok (r, gas), w'))
    (hcalm : (withContext h serve).Within (Calm Chain.MetersRise)) :
    w.Billed id w' 0 0 gas := by
  have hmoved := hcalm w
  rw [hx] at hmoved
  exact withContext_billed hcharges hx hmoved.chain (fun k => hmoved.keeps k)

/-- A call that is live after a release charges what it has charged before. -/
theorem release_keeps {id : MeterId} (w : World) (h k : Handle) (hk : Charges id k w) :
    Charges id k (w.release h) := by
  intro ctx hctx
  exact hk ctx (Registry.get?_of_release hctx)

/-- A call that is registered with the meter charges it, and no other call is told apart. -/
theorem insert_keeps {id : MeterId} {w w' : World} {b : Binding} {parent : Option Handle}
    {depth : UInt32} (hinsert : w'.registry = (w.registry.insert b parent depth).2)
    (hb : b.meter = id) :
    Charges id (w.registry.insert b parent depth).1 w' ∧
      ∀ k, Charges id k w → Charges id k w' := by
  -- A live call is the new one or was live before.
  have hnew : ∀ k ctx, w'.registry.calls.get? k = some ctx →
      ctx.binding.meter = id ∨ w.registry.calls.get? k = some ctx := by
    intro k ctx hctx
    rw [hinsert, Registry.calls_insert, Table.get?_set] at hctx
    by_cases hk : k = w.registry.allocate.1
    · rw [if_pos hk, Option.some.injEq] at hctx
      rw [← hctx]
      exact Or.inl hb
    · rw [if_neg hk] at hctx
      exact Or.inr hctx
  refine ⟨?_, fun k hk ctx hctx => ?_⟩
  · intro ctx hctx
    have hhandle : (w.registry.insert b parent depth).1 = w.registry.allocate.1 := by
      rw [Registry.insert_eq]
    rw [hinsert, Registry.calls_insert, hhandle, Table.get?_set_self, Option.some.injEq] at hctx
    rw [← hctx]
    exact hb
  · rcases hnew k ctx hctx with hmeter | hold
    · exact hmeter
    · exact hk ctx hold

end World

/-! ## Nested calls -/

namespace Host

variable {id : MeterId} {host : Host} (hrises : host.capabilities.Within Chain.MetersRise)
  (hshares : host.capabilities.SharesMeter)

include hrises

theorem payFunds_billed {call : Handle} {request : ContractCall} {w w' : World}
    {r : Except HostError Unit} {gas : Report} (hcharges : w.Charges id call)
    (hx : host.payFunds call request w = (.ok (r, gas), w')) : w.Billed id w' 0 0 gas := by
  unfold payFunds at hx
  split at hx
  · cases hx
    exact .refl id w
  · exact World.withContext_billed_of_calm hcharges hx
      (transfer_within (World.follows_calm Chain.metersRise_harmless.steady) host hrises call _ _ _)

include hshares

/-- A call that has been resolved charges the meter as well. -/
theorem resolveCall_billed {call : Handle} {contract store : String} {w w' : World}
    {r : Except HostError ResolvedCall} {gas : Report} (hcharges : w.Charges id call)
    (hx : host.resolveCall call contract store w = (.ok (r, gas), w')) :
    w.Billed id w' 0 0 gas ∧ ∀ child, r = .ok child → w'.Charges id child.call := by
  have hmoved := resolveCall_along Chain.metersRise_harmless.steady host hrises call contract
    store w
  rw [hx] at hmoved
  rcases resolveCall_cases hx with
    ⟨hsame, hnone⟩ | ⟨ctx, found, c, checksum, _, hlookup, -, hcap, -, hr, hw'⟩
  · -- Nothing has been registered, so the live calls charge what they have charged before.
    refine ⟨World.withContext_billed hcharges hx hmoved (fun k hk ctx hctx => ?_), ?_⟩
    · rw [hsame] at hctx
      exact hk ctx hctx
    · intro child hchild
      exact absurd (by rw [hchild]) (hnone child gas)
  · cases hr
    -- The tree of calls stays on one meter.
    have hmeter : found.binding.meter = id :=
      (hshares ctx contract store w.chain found c hcap).trans
        (hcharges ctx (Registry.lookup_eq_ok_iff.mp hlookup))
    have hinsert : w'.registry = (w.registry.registerChild ctx found.binding).2 := by rw [hw']
    rcases World.insert_keeps hinsert hmeter with ⟨hnew, hkeeps⟩
    refine ⟨World.withContext_billed hcharges hx hmoved hkeeps, ?_⟩
    intro child hchild
    cases hchild
    exact hnew

/-- All that comes before the callee runs is billed, and the callee charges the meter. -/
theorem openCall_billed {call : Handle} {request : ContractCall} {w w' : World}
    {r : Except HostError ResolvedCall} {gas : Report} (hcharges : w.Charges id call)
    (hx : host.openCall call request w = (.ok (r, gas), w')) :
    w.Billed id w' 0 0 gas ∧ ∀ child, r = .ok child → w'.Charges id child.call := by
  rcases openCall_cases hx with
    ⟨paid, hpay, hended⟩ | ⟨w₁, payGas, store, resolved, hpay, -, hresolve, hresolved⟩
  · -- What has been paid for the coins is on the bill, whatever has ended the call.
    rcases hended with ⟨p, -, hpanic⟩ | ⟨result, e, _, rfl, hrefused⟩
    · cases hpanic
    · cases hrefused
      exact ⟨payFunds_billed hrises hcharges hpay, fun _ h => by cases h⟩
  · have hpaid := payFunds_billed hrises hcharges hpay
    rcases resolved with p | ⟨result, resolveGas⟩
    · cases hresolved
    · cases hresolved
      rcases resolveCall_billed hrises hshares (hpaid.keeps call hcharges) hresolve with
        ⟨hbilled, hchild⟩
      exact ⟨hpaid.append hbilled, hchild⟩

end Host

/-- An engine whose runs are billed by their points. -/
def Engine.Bills (id : MeterId) (engine : Engine)
    (points : List Script.Moment → Script.Start → List Script.Point) : Prop :=
  ∀ above invocation call w r gas w', w.Charges id call →
    engine invocation call w = (.ok (r, gas), w') →
    w.Billed id w' (Script.queryGas (points above ⟨invocation, call, w⟩))
      (Script.chargedCount (points above ⟨invocation, call, w⟩)) gas

/-- A nested call is billed by the points of the run that it starts, if it gets so far. -/
theorem Host.callContract_billed {id : MeterId} {host : Host}
    (hrises : host.capabilities.Within Chain.MetersRise)
    (hshares : host.capabilities.SharesMeter) {engine : Engine}
    {below : List Script.Moment → Script.Start → List Script.Point}
    (hengine : engine.Bills id below) (above : List Script.Moment) {call : Handle}
    {request : ContractCall} {w w' : World} {r : Except HostError Bytes} {gas : Report}
    (hcharges : w.Charges id call)
    (hx : host.callContract engine call request w = (.ok (r, gas), w')) :
    w.Billed id w'
      (Script.queryGas ((host.started? call request w).elim [] (below above)))
      (Script.chargedCount ((host.started? call request w).elim [] (below above))) gas := by
  rw [Host.callContract_apply] at hx
  unfold Host.started?
  rcases hopen : host.openCall call request w with ⟨p | ⟨e | child, openGas⟩, w₁⟩
  · rw [hopen] at hx
    cases hx
  · rw [hopen] at hx
    cases hx
    exact (openCall_billed hrises hshares hcharges hopen).1
  · rcases openCall_billed hrises hshares hcharges hopen with ⟨hopened, hchild⟩
    rw [hopen] at hx
    dsimp only at hx ⊢
    rcases hrun : engine (host.nestedInvocation request child.checksum) child.call w₁ with
      ⟨p | ⟨result, used⟩, w₂⟩
    · rw [hrun] at hx
      cases hx
    · rw [hrun] at hx
      cases hx
      have hnested := hengine above _ _ _ _ _ _ (hchild child rfl) hrun
      -- The release closes the stretch and costs nothing.
      have hreleased : w₂.Billed id (w₂.release child.call) 0 0 .free :=
        .free (fun k => w₂.release_keeps child.call k) rfl
      have htotal := hopened.append (hnested.append_free hreleased)
      rw [Nat.zero_add, Nat.zero_add] at htotal
      exact htotal

/-! ## Scripts -/

namespace Script

variable {id : MeterId} {s : Setting} (hrises : s.host.capabilities.Within Chain.MetersRise)
  (hshares : s.host.capabilities.SharesMeter)
  {below : List Moment → Start → List Point} (hnested : s.nested.Bills id below)

theorem drain_billed {host : Host} {cursor : CursorId} {steps : Nat} {used gas : Report}
    {w₀ w w' : World} {r : Except HostError (List Record)} {q n : Nat}
    (hsofar : w₀.Billed id w q n used) (hcharges : w.Charges id cursor.call)
    (hx : drain host cursor steps used w = (.ok (r, gas), w')) : w₀.Billed id w' q n gas := by
  -- The bill so far is carried along, so the steps before a failure stay on it.
  induction steps generalizing used w r with
  | zero =>
      cases hx
      exact hsofar
  | succ steps ih =>
      rw [drain] at hx
      rcases Action.bind_ok hx with ⟨⟨found, nextGas⟩, u, hnext, hrest⟩
      have hstep := World.withContext_billed_of_calm hcharges hnext
        (Host.next_calm Chain.metersRise_harmless host cursor)
      have hnow := hsofar.append hstep
      rcases found with e | _ | e
      · cases hrest
        exact hnow
      · cases hrest
        exact hnow
      · rcases Action.bind_ok hrest with ⟨⟨rest, restGas⟩, v, hdrain, hend⟩
        cases hend
        exact ih hnow (hstep.keeps cursor.call hcharges) hdrain

/-- A scan is billed for the cursor and then for every step of it. -/
theorem scan_billed {used gas : Report} {start stop : Option String} {descending : Bool}
    {w w' : World} {r : Except HostError Node} (hcharges : w.Charges id s.call)
    (hx : perform s used (.scan start stop descending) w = (.ok (r, gas), w')) :
    w.Billed id w' 0 0 gas := by
  rcases Action.bind_ok hx with ⟨⟨opened, scanGas⟩, u, hscan, hrest⟩
  have hopened := World.withContext_billed_of_calm hcharges hscan
    (Host.scan_calm Chain.metersRise_harmless _ _ _ _)
  cases opened with
  | error e =>
      cases hrest
      exact hopened
  | ok cursor =>
      rcases Host.scan_ok hscan with ⟨ctx, _, _, _, hcursor, _⟩
      rcases Action.bind_ok hrest with ⟨v, _, hget, hdrain⟩
      cases hget
      rcases Action.bind_ok hdrain with ⟨_, _, hdrained, hend⟩
      cases hend
      refine drain_billed hopened ?_ hdrained
      rw [hcursor]
      exact hopened.keeps s.call hcharges

/-- A query moves no meter, and its gas is all that it adds. -/
theorem query_billed {call : Handle} {request : Bytes} {gasLimit : UInt64} {w w' : World}
    {r : Except HostError Bytes} {gas : Report}
    (hx : World.query call request gasLimit w = (.ok (r, gas), w')) :
    w.Billed id w' gas.total.toNat 0 gas := by
  have hidle := Host.query_idle call request gasLimit w
  rw [hx] at hidle
  subst hidle
  -- A query costs the engine nothing.
  have hcost : gas.cost = 0 := by
    cases hlookup : w'.registry.lookup call with
    | error e =>
        rw [World.query_dead hlookup] at hx
        cases hx
        rfl
    | ok ctx =>
        rcases hrun : (ctx.binding.querier w'.chain request).run (.new (some gasLimit)) with
          ⟨answer, meter⟩
        rw [World.query_live hlookup request gasLimit hrun] at hx
        cases answer with
        | error p => cases hx
        | ok result =>
            rw [Except.map] at hx
            split at hx
            · cases hx
              rfl
            · cases hx
              rfl
  -- So its total is what it reports for the host's side, and no clamp comes in.
  have htotal : gas.total.toNat = gas.external.toNat := by
    have hfits := Word.toNat_le_top gas.external
    rw [Report.total, Word.toNat_add, hcost, UInt64.toNat_zero]
    omega
  refine ⟨Nat.le_refl _, ?_, hcost, fun _ hk => hk⟩
  rw [Nat.sub_self, Nat.zero_add, htotal, Word.clamp_toNat]

include hrises hshares hnested

/-- A call is billed by the points of the run that it starts. -/
theorem call_billed (above : List Moment) {used gas : Report} {contract : String}
    {delegate : Bool} {funds : List Coin} {ops : List Op} {w w' : World}
    {r : Except HostError Node} (hcharges : w.Charges id s.call)
    (hx : perform s used (.call contract delegate funds ops) w = (.ok (r, gas), w')) :
    w.Billed id w'
      (queryGas (Moment.points below above ⟨s, used, .call contract delegate funds ops, w⟩))
      (chargedCount (Moment.inner below above ⟨s, used, .call contract delegate funds ops, w⟩))
      gas := by
  have hquery : Moment.queryGas ⟨s, used, .call contract delegate funds ops, w⟩ = 0 := rfl
  unfold Moment.points
  rw [queryGas_cons, hquery, Nat.zero_add]
  cases hlookup : w.registry.lookup s.call with
  | error e =>
      rw [perform_call_dead hlookup] at hx
      cases hx
      rw [Moment.inner_dead below above hlookup]
      exact .refl id w
  | ok ctx =>
      rw [perform_call_live hlookup] at hx
      rw [Moment.inner_live below above hlookup]
      rcases hcall : s.host.callContract s.nested s.call
        (nestedCall s used ctx contract delegate funds ops) w with ⟨p | ⟨output, callGas⟩, u⟩
      · rw [hcall] at hx
        cases hx
      · rw [hcall] at hx
        cases hx
        exact Host.callContract_billed hrises hshares hnested _ hcharges hcall

/-- What an operation does is billed by its own query and by the points of the run it
    starts. -/
theorem perform_billed (above : List Moment) {used gas : Report} {op : Op} {w w' : World}
    {r : Except HostError Node} (hcharges : w.Charges id s.call)
    (hx : perform s used op w = (.ok (r, gas), w')) :
    w.Billed id w' (queryGas (Moment.points below above ⟨s, used, op, w⟩))
      (chargedCount (Moment.inner below above ⟨s, used, op, w⟩)) gas := by
  have hharmless := Chain.metersRise_harmless
  have hcalm := World.follows_calm hharmless.steady
  -- Each operation but a call and a query is one request of the run's own call, or several in a
  -- row.
  cases op with
  | set key value =>
      rcases Action.bind_ok hx with ⟨_, _, hset, hend⟩
      cases hend
      exact World.withContext_billed_of_calm hcharges hset (Host.set_within hharmless hcalm _ _ _ _)
  | get key =>
      rcases Action.bind_ok hx with ⟨_, _, hget, hend⟩
      cases hend
      exact World.withContext_billed_of_calm hcharges hget (Host.get_within hharmless hcalm _ _ _)
  | delete key =>
      rcases Action.bind_ok hx with ⟨_, _, hdelete, hend⟩
      cases hend
      exact World.withContext_billed_of_calm hcharges hdelete
        (Host.delete_within hharmless hcalm _ _ _)
  | scan start stop descending => exact scan_billed hcharges hx
  | call contract delegate funds ops =>
      exact call_billed hrises hshares hnested above hcharges hx
  | query request gasLimit =>
      have hperformed : Moment.queryGas ⟨s, used, .query request gasLimit, w⟩ =
          gas.total.toNat := by
        unfold Moment.queryGas Moment.performed
        dsimp only
        rw [hx]
      rcases Action.bind_ok hx with ⟨_, _, hdecoded, hend⟩
      cases hend
      rcases Action.bind_ok hdecoded with ⟨_, _, hquery, hend⟩
      cases hend
      unfold Moment.points
      rw [queryGas_cons, hperformed]
      exact query_billed hquery
  | canonicalize address =>
      rcases Action.bind_ok hx with ⟨_, _, hcanonical, hend⟩
      cases hend
      exact World.withContext_billed_of_calm hcharges hcanonical
        (Host.canonicalize_within hharmless hcalm _ hrises _ _)
  | fail message =>
      cases hx
      exact .refl id w
  | panic message => cases hx

/-- An operation that gets as far as its own charge counts once more. -/
theorem step_billed (above : List Moment) {w₀ w w' : World} {used gas : Report} {op : Op}
    {r : Except HostError Node} {q n : Nat} (hsofar : w₀.Billed id w q n used)
    (hcharges : w.Charges id s.call) (hx : step s used op w = (.ok (r, gas), w')) :
    w₀.Billed id w' (q + queryGas (Moment.points below above ⟨s, used, op, w⟩))
      (n + chargedCount (Moment.points below above ⟨s, used, op, w⟩)) gas := by
  rw [step_apply] at hx
  rcases hperform : perform s used op w with ⟨p | ⟨e | output, opGas⟩, u⟩
  · rw [hperform] at hx
    cases hx
  · -- What has failed is not charged for, but what it has used is kept.
    have hnow := hsofar.append
      (perform_billed hrises hshares hnested above hcharges hperform)
    have hcount : Moment.charged ⟨s, used, op, w⟩ = false := by
      unfold Moment.charged Moment.performed
      rw [hperform]
    rw [hperform] at hx
    cases hx
    unfold Moment.points at hnow ⊢
    rw [chargedCount_cons, hcount]
    exact hnow
  · have hnow := hsofar.append
      (perform_billed hrises hshares hnested above hcharges hperform)
    have hcount : Moment.charged ⟨s, used, op, w⟩ = true := by
      unfold Moment.charged Moment.performed
      rw [hperform]
    rw [hperform] at hx
    unfold Moment.points at hnow ⊢
    rw [chargedCount_cons, hcount]
    -- The charge for the operation is the engine's and moves no meter.
    have hop : u.Billed id u 0 1 (.ofCost opCost) :=
      ⟨Nat.le_refl _, by rw [Nat.sub_self]; rfl, rfl, fun _ hk => hk⟩
    dsimp only at hx
    -- Whether the run is over its limit changes the result and not the gas.
    split at hx
    · cases hx
      exact hnow.append hop
    · cases hx
      exact hnow.append hop

/-- A script is billed by the points of its operations, as far as it gets. -/
theorem runOps_billed (above : List Moment) {w₀ w w' : World} {used gas : Report}
    {ops : List Op} {r : Except HostError (List Node)} {q n : Nat}
    (hsofar : w₀.Billed id w q n used) (hcharges : w₀.Charges id s.call)
    (hx : runOps s used ops w = (.ok (r, gas), w')) :
    w₀.Billed id w' (q + queryGas ((moments s used ops w).flatMap (Moment.points below above)))
      (n + chargedCount ((moments s used ops w).flatMap (Moment.points below above))) gas := by
  -- Every operation is billed on top of those before it.
  induction ops generalizing used w r q n with
  | nil =>
      cases hx
      exact hsofar
  | cons op ops ih =>
      rw [runOps_cons_apply] at hx
      rw [moments, List.flatMap_cons, queryGas_append, chargedCount_append, ← Nat.add_assoc,
        ← Nat.add_assoc]
      rcases hstep : step s used op w with ⟨p | ⟨e | output, stepGas⟩, u⟩
      · rw [hstep] at hx
        cases hx
      · have hnow := step_billed hrises hshares hnested above hsofar
          (hsofar.keeps s.call hcharges) hstep
        rw [hstep] at hx
        cases hx
        exact hnow
      · have hnow := step_billed hrises hshares hnested above hsofar
          (hsofar.keeps s.call hcharges) hstep
        rw [hstep] at hx
        dsimp only at hx ⊢
        rcases hrest : runOps s stepGas ops u with ⟨p | ⟨rest, restGas⟩, v⟩
        · rw [hrest] at hx
          cases hx
        · rw [hrest] at hx
          cases hx
          exact ih hnow hrest

omit hrises hshares hnested in
theorem noted_billed (id : MeterId) (invocation : Invocation) (call : Handle) (w : World) :
    w.Billed id (noted invocation call w) 0 0 .free := .free (fun _ hk => hk) rfl

omit s hrises hshares hnested in
/-- A run is billed if the runs that it starts are. -/
theorem engineOver_bills {host : Host} {nested : Engine}
    (hrises : host.capabilities.Within Chain.MetersRise)
    (hshares : host.capabilities.SharesMeter) (hnested : nested.Bills id below) :
    (engineOver host nested).Bills id (pointsOver host nested below) := by
  intro above invocation call w r gas w' hcharges hx
  -- The bill of a run starts empty, behind the note of its start.
  have hstart := noted_billed id invocation call w
  rw [engineOver_apply] at hx
  unfold pointsOver
  cases hdecode : decode? invocation.msg with
  | none =>
      rw [hdecode] at hx
      cases hx
      exact hstart
  | some ops =>
      rw [hdecode] at hx
      dsimp only at hx ⊢
      rcases hrun : runOps ⟨host, nested, invocation, call⟩ .free ops (noted invocation call w)
        with ⟨p | ⟨outputs, used⟩, u⟩
      · rw [hrun] at hx
        cases hx
      · have hbilled := runOps_billed (s := ⟨host, nested, invocation, call⟩) hrises hshares
          hnested above hstart hcharges hrun
        rw [Nat.zero_add, Nat.zero_add] at hbilled
        rw [hrun] at hx
        cases hx
        exact hbilled

omit s hrises hshares hnested in
theorem refusal_bills (id : MeterId) : refusal.Bills id fun _ _ => [] := by
  intro above invocation call w r gas w' _ hx
  cases hx
  exact .refl id w

omit s hrises hshares hnested below in
theorem engineAt_bills {host : Host} (hrises : host.capabilities.Within Chain.MetersRise)
    (hshares : host.capabilities.SharesMeter) (level : Nat) :
    (engineAt host level).Bills id (pointsAt host level) := by
  induction level with
  | zero => exact engineOver_bills hrises hshares (refusal_bills id)
  | succ level ih => exact engineOver_bills hrises hshares ih

end Script

/-- A run that is not ended by a panic reports, for the host's side, what the meter of its
    call went up by and the gas of all queries, and for the engine, the number of operations
    that were charged for, each at every level of nested calls. -/
theorem Host.run_reports_gas {host : Host} {querier : Querier}
    (hcap : host.capabilities = .inMemory querier) {binding : Binding} {request : Host.Request}
    {w w' : World} {result : Except HostError Bytes} {gas : Report}
    (hrun : host.run (Script.engine host) binding request w = (.ok (result, gas), w')) :
    w.consumed binding.meter ≤ w'.consumed binding.meter ∧
      gas.external.toNat =
        min (w'.consumed binding.meter - w.consumed binding.meter +
          Script.queryGas (host.points binding request w)) Word.top ∧
      gas.cost.toNat = min (Script.chargedCount (host.points binding request w)) Word.top := by
  have hrises : host.capabilities.Within Chain.MetersRise := by
    rw [hcap]
    exact Capabilities.inMemory_within_metersRise querier
  have hshares : host.capabilities.SharesMeter := by
    rw [hcap]
    exact Capabilities.inMemory_sharesMeter querier
  rw [run_apply] at hrun
  have hinsert : (w.register binding).2.registry = (w.registry.insert binding none 0).2 := rfl
  -- The root call is registered on the meter that is followed.
  rcases World.insert_keeps hinsert rfl with ⟨hcharges, _⟩
  rcases hengine : Script.engine host (host.topInvocation request) (w.register binding).1
    (w.register binding).2 with ⟨p | ⟨r, used⟩, u⟩
  · rw [hengine] at hrun
    cases hrun
  · rw [hengine] at hrun
    cases hrun
    -- Neither the registration nor the release touches a meter.
    have hbilled := Script.engineAt_bills hrises hshares nestingLimit [] _ _ _ _ _ _ hcharges
      hengine
    refine ⟨hbilled.rises, ?_, ?_⟩
    · rw [hbilled.external, Word.toNat_clamp]
      rfl
    · rw [hbilled.cost, Word.toNat_clamp]
      rfl

/-- A nested call with a query in it, and a write that takes the run over its limit. -/
def Host.Request.overLimit : Host.Request :=
  .executing [.call "a" false [] [.query "q" 50], .set "k" "v"] 10

/-- The three operations and the query are on the bill, although the run has failed. -/
theorem Host.run_reports_gas_of_failure :
    ∃ result w',
      Host.small.run (Script.engine .small) .small .overLimit .small =
        (.ok (result, ⟨3, 2061⟩), w') ∧
      World.small.consumed 0 ≤ w'.consumed 0 ∧
      (2061 : UInt64).toNat =
        min (w'.consumed 0 - World.small.consumed 0 +
          Script.queryGas (Host.small.points .small .overLimit .small)) Word.top ∧
      (3 : UInt64).toNat =
        min (Script.chargedCount (Host.small.points .small .overLimit .small))
          Word.top := by
  have hgas : ((Host.small.run (Script.engine .small) .small .overLimit
      .small).1.toOption.map (·.2)) = some ⟨3, 2061⟩ := by decide +kernel
  rcases hrun : Host.small.run (Script.engine .small) .small .overLimit .small
    with ⟨p | ⟨result, gas⟩, w'⟩
  · rw [hrun] at hgas
    cases hgas
  · rw [hrun] at hgas
    cases hgas
    exact ⟨result, w', rfl, Host.run_reports_gas rfl hrun⟩

end ContractHost
