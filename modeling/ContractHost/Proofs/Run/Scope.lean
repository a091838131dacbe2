import ContractHost.Proofs.Host.Interference
import ContractHost.Proofs.Run.Points

/-!
# Storage in Nested Calls

Whose storage a contract runs on is not handed down from call to call. A plain call runs on the
storage of the contract that it calls, and a delegate call runs on the storage that the call it
is made by runs on, which is looked up again in the binding of that call. This file says what
that comes to below any number of calls of both kinds: an operation runs on the storage of the
contract called by the nearest plain call above it, or on the storage of the whole run if there
are only delegate calls above it. The contract that runs is another matter, for it is the one
that was called last.

The invariant is `World.BoundTo`: the call that an operation belongs to is live and bound to
the right storage, under the right address. Within a script it is kept because the live calls
come back after every operation. From a script to the script of a call below it, it is handed
down by what the host binds the new call to. So it is `Script.Inherited`, and holds at every
point.

## Main definitions

* `Script.scope`, `Script.callee`: Whose storage it is, and which contract runs.
* `World.BoundTo`: A live call is bound to the storage of a contract.

## Theorems

* `Script.opened_bound`: What a call below another is bound to.
* `Script.pointsAt_bound`: The points of every level.
* `Host.run_keeps_scope`: Whose storage the operations of a run see and change.
-/

namespace ContractHost

namespace Script

/-- The address whose storage an operation below the given calls runs on, the innermost of
    which comes first: that of the first call that is no delegate call, or else of the run. -/
def scope (run : String) : List Moment → String
  | [] => run
  | m :: above =>
    match m.op with
    | .call contract false _ _ => contract
    | _ => scope run above

/-- The contract that runs below the given calls, which is the one called last. -/
def callee (run : Option String) : List Moment → Option String
  | [] => run
  | m :: above =>
    match m.op with
    | .call contract _ _ _ => some contract
    | _ => callee run above

end Script

/-- A call is live and bound to the storage of a contract. -/
def World.BoundTo (w : World) (call : Handle) (address : String) (callee : Option String) :
    Prop :=
  ∃ ctx, w.registry.lookup call = .ok ctx ∧ ctx.binding.store = .ofContract address ∧
    ctx.binding.storeAddress = some address ∧ ctx.binding.contractAddress = callee

namespace World

variable {w w' : World} {call : Handle} {address : String} {callee : Option String}

/-- A call stays what it is as long as the live calls do. -/
theorem BoundTo.of_settled (h : w.BoundTo call address callee)
    (hsettled : w.registry.Settled w'.registry) : w'.BoundTo call address callee := by
  rcases h with ⟨ctx, hlive, hbound⟩
  refine ⟨ctx, ?_, hbound⟩
  rw [Registry.lookup_eq_ok_iff, hsettled.calls]
  exact Registry.lookup_eq_ok_iff.mp hlive

/-- A call is bound to what it has been registered with. -/
theorem boundTo_of_insert {r : Registry} {b : Binding} {parent : Option Handle} {depth : UInt32}
    (hregistry : w.registry = (r.insert b parent depth).2) (hstore : b.store = .ofContract address)
    (haddress : b.storeAddress = some address) :
    w.BoundTo (r.insert b parent depth).1 address b.contractAddress := by
  refine ⟨r.contextFor b parent depth, ?_, hstore, haddress, rfl⟩
  rw [hregistry]
  exact r.lookup_insert_self b parent depth

end World

namespace Host

/-- Below a call whose storage has an address, a callee runs on the storage of that address or
    on its own. -/
theorem storeAddressFor_eq {call : Handle} {ctx : Context} {address : String} {w : World}
    (hlive : w.registry.lookup call = .ok ctx) (haddress : ctx.binding.storeAddress = some address)
    (request : ContractCall) :
    storeAddressFor call request w =
      .ok (if request.delegate = true then address else request.contract) := by
  unfold storeAddressFor
  by_cases hdelegate : request.delegate = true
  · rw [if_pos hdelegate, if_pos hdelegate, hlive]
    dsimp only [bind, Except.bind]
    rw [haddress]
    rfl
  · rw [if_neg hdelegate, if_neg hdelegate]

/-- What a call that has been opened is bound to. -/
theorem openCall_bound {host : Host} {querier : Querier}
    (hcap : host.capabilities = .inMemory querier) {call : Handle} {request : ContractCall}
    {address : String} {callee : Option String} {w w' : World} {child : ResolvedCall} {gas : Report}
    (hbound : w.BoundTo call address callee)
    (hopen : host.openCall call request w = (.ok (.ok child, gas), w')) :
    w'.BoundTo child.call (if request.delegate = true then address else request.contract)
      (some request.contract) := by
  rcases hbound with ⟨ctx, hlive, -, haddress, -⟩
  -- The coins leave the registry alone, so the call is still what it was.
  have hpaid := (payFunds_within (World.follows_calm Chain.harmless_trivial.steady) host
    host.capabilities.within_trivial call request w).registry
  rcases openCall_cases hopen with
    ⟨paid, -, ⟨p, -, hx⟩ | ⟨_, e, _, -, hx⟩⟩ | ⟨w₁, payGas, store, r, hpay, hstore, hresolve, hx⟩
  · cases hx
  · cases hx
  · rw [hpay] at hpaid
    have hlive₁ : w₁.registry.lookup call = .ok ctx := hpaid ▸ hlive
    -- The storage is chosen by the kind of the call alone, because the call above it is live.
    rw [storeAddressFor_eq hlive₁ haddress, Except.ok.injEq] at hstore
    rcases resolveCall_cases hresolve with
      ⟨-, hnone⟩ | ⟨ctx', found, c, checksum, used, -, -, hfound, -, hr, hw'⟩
    · rcases r with p | ⟨e | child', used⟩
      · cases hx
      · cases hx
      · exact absurd rfl (hnone child' used)
    · -- The new call is registered with what the chain has found for it.
      rw [hr] at hx
      cases hx
      rw [hcap] at hfound
      have hbinding := Capabilities.inMemory_resolves hfound
      have hregistry : w'.registry =
          (w₁.registry.insert found.binding (some ctx'.handle) ctx'.childDepth).2 := by
        rw [hw']
        rfl
      have hchosen : found.binding.store = .ofContract store ∧
          found.binding.storeAddress = some store ∧
          found.binding.contractAddress = some request.contract := by
        rw [hbinding]
        exact ⟨rfl, rfl, rfl⟩
      rw [hstore, ← hchosen.2.2]
      exact World.boundTo_of_insert hregistry hchosen.1 hchosen.2.1

end Host

namespace Script

/-- What is bound above a call is bound below it, to the storage that the call chooses. -/
theorem opened_bound {querier : Querier} {m : Moment} {start : Start}
    (hcap : m.setting.host.capabilities = .inMemory querier) {run : String}
    {contract : Option String} {above : List Moment}
    (hbound : m.world.BoundTo m.setting.call (scope run above) (callee contract above))
    (h : m.opened = some start) :
    start.world.BoundTo start.call (scope run (m :: above)) (callee contract (m :: above)) := by
  rcases opened_cases h with
    ⟨called, delegate, funds, ops, request, child, gas, hop, rfl, rfl, hopen, hcall, -⟩
  have hchild := Host.openCall_bound hcap hbound hopen
  -- A delegate call is passed over in the search for the scope, and a plain call ends it.
  have hscope : scope run (m :: above) =
      if request.delegate = true then scope run above else request.contract := by
    rw [scope, hop]
    cases request.delegate with
    | true => rfl
    | false => rfl
  have hcallee : callee contract (m :: above) = some request.contract := by
    rw [callee, hop]
  rw [hscope, hcallee, hcall]
  exact hchild

/-- At every point the call that is in progress is bound to the storage that the calls above
    it have chosen. -/
def Point.Bound (run : String) (contract : Option String) (p : Point) : Prop :=
  p.now.world.BoundTo p.now.setting.call (scope run p.above) (callee contract p.above)

/-- What a call is bound to is handed down: a script keeps it, and a call below the script is
    bound to the storage that it chooses. -/
theorem inherited_bound {host : Host} {querier : Querier}
    (hcap : host.capabilities = .inMemory querier) (run : String) (contract : Option String) :
    Inherited host fun _ above call w =>
      w.BoundTo call (scope run above) (callee contract above) where
  settled hbound hsettled := hbound.of_settled hsettled
  opened hhost _ _ hbound hopened := opened_bound (hhost ▸ hcap) hbound hopened

theorem pointsAt_bound {host : Host} {querier : Querier} {run : String} {contract : Option String}
    (hcap : host.capabilities = .inMemory querier) (level : Nat) {above : List Moment}
    {start : Start} (hw : start.world.registry.Consistent)
    (hroom : start.world.registry.size + (level + 1) < Word.top)
    (hbound : start.world.BoundTo start.call (scope run above) (callee contract above)) :
    ∀ p ∈ pointsAt host level above start, p.Bound run contract := by
  intro p hp
  rcases (inherited_bound hcap run contract).pointsAt level hw hroom hbound p hp with
    ⟨-, -, -, n, hnow⟩
  exact hnow

end Script

namespace Host

/-- A run of a call that is bound to the storage of a contract. At every point of it, below any
    calls of either kind, the call in progress is bound to the storage that the nearest plain
    call has chosen, under the address of it, and to the contract called last. Whatever it asks
    for about storage sees and changes the records of that contract only.

    `hroom` leaves a free handle for every call that can be live at once. -/
theorem run_keeps_scope {host : Host} {querier : Querier}
    (hcap : host.capabilities = .inMemory querier) {binding : Binding} {address : String}
    (hstore : binding.store = .ofContract address) (haddress : binding.storeAddress = some address)
    (request : Request) {w : World} (hreached : w.registry.Reached)
    (hroom : w.registry.size + nestingLimit + 2 < Word.top) :
    ∀ p ∈ host.points binding request w, p.Bound address binding.contractAddress ∧
      ∀ ctx q, p.now.world.registry.lookup p.now.setting.call = .ok ctx →
        q.call = p.now.setting.call →
        (ctx.share Chain.contractMemory (Store.contractPrefix (Script.scope address p.above))).Local
          p.now.world.registry (host.serve q) := by
  have hw := hreached.consistent
  have hsize : (w.register binding).2.registry.size = w.registry.size + 1 :=
    Registry.size_insert w.registry hw (by omega) binding none 0
  -- There are no calls above the operations of the run itself.
  have hpoints : ∀ p ∈ Script.pointsAt host nestingLimit []
      ⟨host.topInvocation request, (w.register binding).1, (w.register binding).2⟩,
      p.Bound address binding.contractAddress := by
    refine Script.pointsAt_bound hcap nestingLimit (hw.insert binding none 0) ?_ ?_
    · dsimp only
      omega
    · exact World.boundTo_of_insert rfl hstore haddress
  intro p hp
  have hbound := hpoints p hp
  refine ⟨hbound, fun ctx q hlive hq => ?_⟩
  -- A request for the same call is served on the storage that the call is bound to.
  rcases hbound with ⟨ctx', hlive', hstore', -, -⟩
  rw [hlive, Except.ok.injEq] at hlive'
  subst hlive'
  rw [← hq] at hlive
  refine serve_local host ?_ hlive
  rw [hstore']
  exact Store.shows_ofContract _

end Host

/-- A delegate call below a plain call of another contract. -/
def Host.Request.delegating : Host.Request :=
  .executing [.call "b" false [] [.call "a" true [] [.set "k" "v"]]] 100000

/-- The record is written to the storage of the other contract, although the contract that
    writes it is the one that the run is about. -/
theorem Host.run_keeps_scope_of_delegate :
    ((Host.small.points .small .delegating .pair).map fun p =>
        (Script.scope "a" p.above, Script.callee (some "a") p.above)) =
      [("a", some "a"), ("b", some "b"), ("b", some "a")] ∧
      ∀ p ∈ Host.small.points .small .delegating .pair, p.Bound "a" (some "a") := by
  have hcap : Host.small.capabilities = .inMemory (.answering 1) := rfl
  refine ⟨by decide +kernel, fun p hp => ?_⟩
  exact (Host.run_keeps_scope hcap rfl rfl .delegating World.reached_pair (by decide) p hp).1

end ContractHost
