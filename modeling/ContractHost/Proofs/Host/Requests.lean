import ContractHost.Host.Requests
import ContractHost.Host.Storage
import ContractHost.Proofs.Effect

/-!
# What Requests Leave Alone

Most of what a running contract asks for happens on the chain: a meter is charged, a store
is read or written, or a capability is asked that sees the chain and nothing else. Besides
that, cursors are opened and moved, and one request registers a call. All of this is so
whichever way a request ends, and this file says it once for all requests.

What happens to the chain depends on what one wants to know about it. `Harmless Q` says
that `Q` lets gas be charged, memories be written and outages be passed, which is all that
the host itself ever does to a chain. Everything else comes from capabilities, and
`Capabilities.Within Q` says that those move along `Q` too. The trivial relation is
harmless for every set of capabilities.

What one wants to know about the rest of the world is a relation that `Follows Q`. For most
requests that is enough; opening and moving a cursor also have to be let, which is a matter
of the frame. `World.Calm` is the relation of the requests that do not touch the registry.

## Main definitions

* `Chain.Harmless`: A relation along which the host itself moves a chain.
* `Capabilities.Within`: Capabilities that move the chain along a relation.
* `World.Follows`: A relation on worlds that lets the chain move along another.
* `World.Along`: The chain moves along a relation.
* `World.Calm`: The registry stays as it is while the chain moves along a relation.

## Theorems

* `Store.get_within` and so on: Stores move the chain along harmless relations.
* `World.withContext_dead`, `World.withContext_live`: A request, by whether its call is
  live.
* `World.query_dead`, `World.query_live`: A query, by whether its call is live.
* `World.withContext_within`: A request moves along a relation if serving it does.
* `Host.get_within` and so on: The requests that only move the chain.
* `Host.scan_within`, `Host.move_within`: The requests that touch a frame.
* `Host.query_idle`: A query leaves the whole world as it is.
* `Host.resolveCall_within`: The request that registers a call.
-/

namespace ContractHost

/-! ## Chains -/

namespace Chain

/-- A relation along which the host itself moves a chain. -/
structure Harmless (Q : Chain → Chain → Prop) : Prop where
  steady : Steady Q
  charge : ∀ c id amount, Q c (c.setMeter id ((c.meter id).charged amount))
  write : ∀ c id t, Q c (c.setMemory id t)
  pass : ∀ c place q o, Q c (c.setStoreOutage place q o)

/-- The relation that asks for nothing. -/
theorem harmless_trivial : Harmless fun _ _ => True where
  steady := ⟨fun _ => trivial, fun _ _ => trivial⟩
  charge _ _ _ := trivial
  write _ _ _ := trivial
  pass _ _ _ _ := trivial

/-- A charge is put on its meter, refused or not. -/
theorem charge_apply (id : MeterId) (amount : UInt64) (c : Chain) :
    charge id amount c =
      (.ok ((c.meter id).charge amount).1, c.setMeter id ((c.meter id).charged amount)) := rfl

variable {Q : Chain → Chain → Prop}

theorem charge_within (hQ : Harmless Q) (id : MeterId) (amount : UInt64) :
    (charge id amount).Within Q := by
  intro c
  rw [charge_apply]
  exact hQ.charge c id amount

end Chain

theorem Outage.guarding_within {σ ε α : Type} {R : σ → σ → Prop} (hR : Steady R)
    {read : σ → Option (Outage ε)} {write : σ → Outage ε → σ} {call : Attempt σ ε α}
    (hwrite : ∀ s o, R s (write s o)) (hcall : call.Within R) :
    (Outage.guarding read write call).Within R := by
  unfold Outage.guarding
  refine .bind hR (.get hR) (fun s => ?_)
  cases read s with
  | none => exact hcall
  | some o =>
      dsimp only
      -- The outage notes that it has been passed, whether or not it strikes.
      refine .bind hR (fun t => hwrite t o.pass) (fun _ => ?_)
      split
      · cases o.failure with
        | panic p => exact .panic hR p
        | refuse e => exact .throw hR e
      · exact hcall

/-! ## Stores -/

namespace Store

variable {Q : Chain → Chain → Prop}

theorem guarding_within {α : Type} (hQ : Chain.Harmless Q) (place : Nat) (q : StoreRequest)
    {call : Store.Attempt α} (hcall : call.Within Q) : (guarding place q call).Within Q :=
  Outage.guarding_within hQ.steady (fun c o => hQ.pass c place q (some o)) hcall

/-- A look-up in a store moves the chain along a harmless relation, and so do the other requests to
    it. -/
theorem get_within (hQ : Chain.Harmless Q) (s : Store) (key : Bytes) :
    (s.get key).Within Q := by
  -- A scope hands the request down under a longer key, so the key changes on the way.
  induction s generalizing key with
  | memory id => exact .bind hQ.steady (.get hQ.steady) (fun _ => .pure hQ.steady _)
  | scope pre of ih => exact ih (pre ++ key)
  | outages place of ih => exact guarding_within hQ place .get (ih key)

theorem set_within (hQ : Chain.Harmless Q) (s : Store) (key value : Bytes) :
    (s.set key value).Within Q := by
  induction s generalizing key with
  | memory id => exact fun c => hQ.write c id _
  | scope pre of ih => exact ih (pre ++ key)
  | outages place of ih => exact guarding_within hQ place .set (ih key)

theorem delete_within (hQ : Chain.Harmless Q) (s : Store) (key : Bytes) :
    (s.delete key).Within Q := by
  induction s generalizing key with
  | memory id => exact fun c => hQ.write c id _
  | scope pre of ih => exact ih (pre ++ key)
  | outages place of ih => exact guarding_within hQ place .delete (ih key)

theorem seek_within (hQ : Chain.Harmless Q) (s : Store) (r : Range) (order : Order) :
    (s.seek r order).Within Q := by
  induction s generalizing r with
  | memory id => exact .bind hQ.steady (.get hQ.steady) (fun _ => .ofExcept hQ.steady _)
  | scope pre of ih =>
      refine .bind hQ.steady (.ofExcept hQ.steady _) (fun _ => ?_)
      exact .bind hQ.steady (ih (Scope.outer pre r)) (fun _ => .pure hQ.steady _)
  | outages place of ih => exact guarding_within hQ place .seek (ih r)

end Store

/-- A cursor takes a step by one request to its store. -/
theorem Cursor.step_within {Q : Chain → Chain → Prop} (hQ : Chain.Harmless Q) (c : Cursor)
    (s : Store) : (c.step s).Within Q := by
  unfold Cursor.step
  split
  · exact .pure hQ.steady _
  · refine .bind hQ.steady (s.seek_within hQ c.range c.order) (fun found => ?_)
    cases found with
    | none => exact .pure hQ.steady _
    | some e => exact .pure hQ.steady _

/-- Capabilities that move the chain along a relation, whatever they are asked. -/
structure Capabilities.Within (Q : Chain → Chain → Prop) (c : Capabilities) : Prop where
  canonicalize : ∀ ctx human, (c.canonicalize ctx human).Within Q
  humanize : ∀ ctx canonical, (c.humanize ctx canonical).Within Q
  resolveCall : ∀ ctx contract store, (c.resolveCall ctx contract store).Within Q
  transfer : ∀ ctx receiver payer coins, (c.transfer ctx receiver payer coins).Within Q
  createContract : ∀ ctx request gasLimit, (c.createContract ctx request gasLimit).Within Q

/-- All capabilities move the chain along the relation that asks for nothing. -/
theorem Capabilities.within_trivial (c : Capabilities) : c.Within fun _ _ => True where
  canonicalize _ _ _ := trivial
  humanize _ _ _ := trivial
  resolveCall _ _ _ _ := trivial
  transfer _ _ _ _ _ := trivial
  createContract _ _ _ _ := trivial

/-! ## Worlds -/

namespace World

/-- A relation on worlds that follows the chain: any number of steps may be taken along
    it, and a step of the chain along `Q` is one of them. -/
structure Follows (Q : Chain → Chain → Prop) (R : World → World → Prop) : Prop where
  steady : Steady R
  chain : ∀ w c, Q w.chain c → R w { w with chain := c }

/-- The chain moves along a relation. -/
def Along (Q : Chain → Chain → Prop) (w w' : World) : Prop := Q w.chain w'.chain

/-- The registry stays as it is while the chain moves along a relation. -/
structure Calm (Q : Chain → Chain → Prop) (w w' : World) : Prop where
  registry : w'.registry = w.registry
  chain : Q w.chain w'.chain

variable {Q : Chain → Chain → Prop} {R : World → World → Prop} {α : Type}

/-- A relation on the chain, whatever becomes of the rest of the world. -/
theorem follows_along (hQ : Steady Q) : Follows Q (Along Q) where
  steady := ⟨fun w => hQ.refl w.chain, fun h h' => hQ.trans h h'⟩
  chain _ _ h := h

/-- A relation on the chain, with the registry as it was. -/
theorem follows_calm (hQ : Steady Q) : Follows Q (Calm Q) where
  steady :=
    ⟨fun w => ⟨rfl, hQ.refl w.chain⟩,
      fun h h' => ⟨h'.registry.trans h.registry, hQ.trans h.chain h'.chain⟩⟩
  chain _ _ h := ⟨rfl, h⟩

theorem onChain_within (hR : Follows Q R) {x : Chain.Attempt HostError α} (hx : x.Within Q) :
    (onChain x).Within R := .focus hR.chain hx

theorem onStore_within (hR : Follows Q R) {x : Store.Attempt α} (hx : x.Within Q) :
    (onStore x).Within R := onChain_within hR (.mapError HostError.ofStore hx)

theorem charge_within (hQ : Chain.Harmless Q) (hR : Follows Q R) (ctx : Context)
    (amount : UInt64) : (charge ctx amount).Within R :=
  onChain_within hR (Chain.charge_within hQ ctx.binding.meter amount)

/-- A request for a call that is not live is refused, costs nothing, and changes nothing. -/
theorem withContext_dead {h : Handle} {w : World} {e : HostError}
    (serve : Context → World.Attempt α) (hdead : w.registry.lookup h = .error e) :
    withContext h serve w = (.ok (.error e, .free), w) := by
  unfold withContext
  rw [Action.bind_apply, Action.get_apply]
  dsimp only
  rw [hdead]
  rfl

/-- A request for a live call is what serving it comes to, with the gas by which the meter of the
    call has gone up. A panic reports no gas. -/
theorem withContext_live {h : Handle} {w : World} {ctx : Context}
    (serve : Context → World.Attempt α) (hlive : w.registry.lookup h = .ok ctx) :
    withContext h serve w = match serve ctx w with
      | (.ok r, w') =>
        (.ok (r, .ofExternal (Word.sub (w'.meterOf ctx).consumed (w.meterOf ctx).consumed)), w')
      | (.error p, w') => (.error p, w') := by
  unfold withContext
  rw [Action.bind_apply, Action.get_apply]
  dsimp only
  rw [hlive]
  dsimp only
  rw [Action.bind_apply, Attempt.outcome_apply]
  rcases serve ctx w with ⟨p | r, w'⟩
  · rfl
  · rfl

/-- A query of a call that is not live is refused, costs nothing, and changes nothing. -/
theorem query_dead {call : Handle} {w : World} {e : HostError}
    (hdead : w.registry.lookup call = .error e) (request : Bytes) (limit : UInt64) :
    World.query call request limit w = (.ok (.error e, .free), w) := by
  unfold World.query
  rw [Action.bind_apply, Action.get_apply]
  dsimp only
  rw [hdead]
  rfl

/-- A query of a live call ends the way its querier does, except that the host reads the meter
    of the query before it passes the answer on. -/
theorem query_live {call : Handle} {w : World} {ctx : Context}
    (hlive : w.registry.lookup call = .ok ctx) (request : Bytes) (limit : UInt64)
    {answer : Except Panic (Except HostError Bytes)} {meter : Meter}
    (hrun : (ctx.binding.querier w.chain request).run (.new (some limit)) = (answer, meter)) :
    World.query call request limit w =
      (answer.map fun result =>
        if limit < meter.consumed then
          (.error (.outOfGas limit meter.consumed), .ofExternal limit)
        else (result, .ofExternal meter.consumed), w) := by
  unfold World.query
  rw [Action.bind_apply, Action.get_apply]
  dsimp only
  rw [hlive]
  dsimp only
  rw [hrun, Action.bind_apply]
  cases answer with
  | error p => rfl
  | ok result =>
      change (if limit < meter.consumed then _ else _ : World.Action (Metered Bytes)) w = _
      rw [Except.map]
      split
      · rfl
      · rfl

/-- A request moves along a relation if serving it for the live call does. -/
theorem withContext_moves (hR : Steady R) {h : Handle} {serve : Context → World.Attempt α}
    {w : World} (hserve : ∀ ctx, w.registry.lookup h = .ok ctx → R w (serve ctx w).2) :
    R w (withContext h serve w).2 := by
  cases hlookup : w.registry.lookup h with
  | error e =>
      rw [withContext_dead serve hlookup]
      exact hR.refl w
  | ok ctx =>
      have hmoved := hserve ctx hlookup
      rw [withContext_live serve hlookup]
      rcases hserved : serve ctx w with ⟨p | r, w'⟩
      · rw [hserved] at hmoved
        exact hmoved
      · rw [hserved] at hmoved
        exact hmoved

/-- A request moves along a relation if serving it does, whichever call it is for. -/
theorem withContext_within (hR : Steady R) (h : Handle) {serve : Context → World.Attempt α}
    (hserve : ∀ ctx, (serve ctx).Within R) : (withContext h serve).Within R :=
  fun w => withContext_moves hR (fun ctx _ => hserve ctx w)

end World

/-! ## Requests -/

/-- There is no cursor number zero. -/
theorem Frame.cursor?_ne_zero {f : Frame} {number : UInt64} {c : Cursor}
    (h : f.cursor? number = some c) : number ≠ 0 := by
  intro hzero
  rw [cursor?, if_pos hzero] at h
  cases h

namespace Host

variable {Q : Chain → Chain → Prop} (hQ : Chain.Harmless Q) {R : World → World → Prop}
  (hR : World.Follows Q R)

include hQ hR

/-- A read moves along what the chain and its charges do. -/
theorem get_within (host : Host) (call : Handle) (key : Bytes) :
    (host.get call key).Within R := by
  refine World.withContext_within hR.steady call (fun ctx => ?_)
  refine .bind hR.steady (World.charge_within hQ hR ctx _) (fun _ => ?_)
  refine .bind hR.steady (World.onStore_within hR (Store.get_within hQ _ _)) (fun value => ?_)
  -- The bytes that are handed back are charged for, if there are any.
  cases value with
  | none => exact .pure hR.steady _
  | some v =>
      exact .bind hR.steady (World.charge_within hQ hR ctx _) (fun _ => .pure hR.steady _)

/-- A write is one charge and one request to the store. -/
theorem set_within (host : Host) (call : Handle) (key value : Bytes) :
    (host.set call key value).Within R := by
  refine World.withContext_within hR.steady call (fun ctx => ?_)
  refine .bind hR.steady (World.charge_within hQ hR ctx _) (fun _ => ?_)
  exact World.onStore_within hR (Store.set_within hQ _ _ _)

theorem delete_within (host : Host) (call : Handle) (key : Bytes) :
    (host.delete call key).Within R := by
  refine World.withContext_within hR.steady call (fun ctx => ?_)
  refine .bind hR.steady (World.charge_within hQ hR ctx _) (fun _ => ?_)
  exact World.onStore_within hR (Store.delete_within hQ _ _)

/-- Opening a cursor, if the relation lets one be opened. -/
theorem scan_within (host : Host) (call : Handle) {r : Range} {order : Order}
    (hpush : ∀ (w : World) ctx, R w (w.setFrame ctx ((w.frameOf ctx).push r order).1)) :
    (host.scan call r order).Within R := by
  refine World.withContext_within hR.steady call (fun ctx => ?_)
  refine .bind hR.steady (World.onStore_within hR (.ofExcept hQ.steady _)) (fun _ => ?_)
  refine .bind hR.steady (World.charge_within hQ hR ctx _) (fun _ => ?_)
  -- The frame is read and replaced in one go.
  exact fun w => hpush w ctx

/-- Moving a cursor, if the relation lets it be moved. -/
theorem move_within (host : Host) {ctx : Context} {number : UInt64}
    (hmove : number ≠ 0 →
      ∀ (w : World) c, R w (w.setFrame ctx ((w.frameOf ctx).replace number c))) :
    (host.move ctx number).Within R := by
  refine .bind hR.steady (World.charge_within hQ hR ctx _) (fun _ => ?_)
  refine .bind hR.steady (.get hR.steady) (fun w => ?_)
  cases hcursor : (w.frameOf ctx).cursor? number with
  | none => exact .throw hR.steady _
  | some c =>
      -- A cursor that is found has a number, so the relation has to let that one be replaced.
      have hnumber : number ≠ 0 := Frame.cursor?_ne_zero hcursor
      refine .bind hR.steady (World.onStore_within hR (c.step_within hQ _)) (fun stepped => ?_)
      rcases stepped with ⟨found, c'⟩
      refine .bind hR.steady (fun w => hmove hnumber w c') (fun _ => ?_)
      cases found with
      | none => exact .pure hR.steady _
      | some e =>
          exact .bind hR.steady (World.charge_within hQ hR ctx _) (fun _ => .pure hR.steady _)

omit hR in
/-- To open a cursor leaves the registry alone. -/
theorem scan_calm (host : Host) (call : Handle) (r : Range) (order : Order) :
    (host.scan call r order).Within (World.Calm Q) :=
  scan_within hQ (World.follows_calm hQ.steady) host call (fun w _ => ⟨rfl, hQ.steady.refl w.chain⟩)

omit hR in
theorem next_calm (host : Host) (cursor : CursorId) :
    (host.next cursor).Within (World.Calm Q) :=
  World.withContext_within (World.follows_calm hQ.steady).steady cursor.call (fun _ =>
    move_within hQ (World.follows_calm hQ.steady) host
      (fun _ w _ => ⟨rfl, hQ.steady.refl w.chain⟩))

theorem canonicalize_within (host : Host) (hcap : host.capabilities.Within Q) (call : Handle)
    (human : String) : (host.canonicalize call human).Within R := by
  refine World.withContext_within hR.steady call (fun ctx => ?_)
  refine .bind hR.steady (World.charge_within hQ hR ctx _) (fun _ => ?_)
  exact World.onChain_within hR (hcap.canonicalize ctx human)

theorem humanize_within (host : Host) (hcap : host.capabilities.Within Q) (call : Handle)
    (canonical : Bytes) : (host.humanize call canonical).Within R := by
  refine World.withContext_within hR.steady call (fun ctx => ?_)
  refine .bind hR.steady (World.charge_within hQ hR ctx _) (fun _ => ?_)
  exact World.onChain_within hR (hcap.humanize ctx canonical)

omit hQ in
theorem transfer_within (host : Host) (hcap : host.capabilities.Within Q) (call : Handle)
    (receiver payer : String) (coins : List Coin) :
    (host.transfer call receiver payer coins).Within R :=
  World.withContext_within hR.steady call
    (fun ctx => World.onChain_within hR (hcap.transfer ctx receiver payer coins))

omit hQ in
theorem createContract_within (host : Host) (hcap : host.capabilities.Within Q) (call : Handle)
    (request : CreateRequest) (gasLimit : UInt64) :
    (host.createContract call request gasLimit).Within R :=
  World.withContext_within hR.steady call
    (fun ctx => World.onChain_within hR (hcap.createContract ctx request gasLimit))

omit hQ hR in
/-- A query runs on a meter of its own, so it leaves the whole world as it is. -/
theorem query_idle (call : Handle) (request : Bytes) (gasLimit : UInt64) :
    (World.query call request gasLimit).Within fun w w' => w' = w := by
  intro w
  cases hlookup : w.registry.lookup call with
  | error e => rw [World.query_dead hlookup]
  | ok ctx => rw [World.query_live hlookup request gasLimit rfl]

omit hQ in
/-- A query whose answer is decoded leaves the world as it is, like any query. -/
theorem queryDecoded_within (call : Handle) (request : Bytes) (gasLimit : UInt64) :
    (World.queryDecoded call request gasLimit).Within R := by
  refine .bind hR.steady (fun w => ?_) (fun _ => .pure hR.steady _)
  -- Nothing has happened in the world, so any relation will do.
  rw [query_idle call request gasLimit w]
  exact hR.steady.refl w

omit hQ in
/-- Resolving a nested call, if the relation lets one be registered. -/
theorem resolveCall_within (host : Host) (hcap : host.capabilities.Within Q)
    (hregister : ∀ (w : World) ctx b, R w (w.registerChild ctx b).2) (call : Handle)
    (contract store : String) : (host.resolveCall call contract store).Within R := by
  refine World.withContext_within hR.steady call (fun ctx => ?_)
  split
  · exact .throw hR.steady _
  · refine .bind hR.steady
      (World.onChain_within hR (hcap.resolveCall ctx contract store)) (fun found => ?_)
    refine .bind hR.steady (.ofExcept hR.steady _) (fun checksum => ?_)
    -- The world is read and replaced in one go.
    exact fun w => hregister w ctx found.binding

omit hQ hR in
/-- Registering a call does not touch the chain. -/
theorem resolveCall_along (hQ : Steady Q) (host : Host) (hcap : host.capabilities.Within Q)
    (call : Handle) (contract store : String) :
    (host.resolveCall call contract store).Within (World.Along Q) :=
  resolveCall_within (World.follows_along hQ) host hcap (fun w _ _ => hQ.refl w.chain) call
    contract store

end Host

end ContractHost
