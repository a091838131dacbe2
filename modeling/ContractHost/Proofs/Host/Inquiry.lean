import ContractHost.Proofs.Host.Nested

/-!
# Inquiries

Eleven requests reach the host on behalf of a running contract, whichever way they come: from a
native engine through its table of callbacks, or from an engine that calls the host itself.
`Inquiry` is what such a request is, whoever makes it, and the type of what is handed back goes
with it, so a request and its answer cannot be mixed up.

Two of the eleven are exceptions to what is true of the rest. Resolving a nested call is the
only one that touches the registry, and a query is the only one that does not run on the meter
of the call that asks.

## Main definitions

* `Inquiry`, `Inquiry.Answer`: What is asked for, and what is handed back.
* `Inquiry.call`: The call on whose behalf it is asked.
* `Host.answer`: The host's answer.

## Theorems

* `Host.answer_within`: What an inquiry moves along.
* `Host.answer_registry`: Only resolving a nested call touches the registry.
* `Host.answer_withContext`: All inquiries but queries run on the meter of their call.
* `Host.answer_dead`: Nothing is done for a call that is not live.
-/

namespace ContractHost

/-- What a running contract may ask its host for. -/
inductive Inquiry
  | get (call : Handle) (key : Bytes)
  | set (call : Handle) (key value : Bytes)
  | delete (call : Handle) (key : Bytes)
  | scan (call : Handle) (r : Range) (order : Order)
  | next (cursor : CursorId)
  | humanize (call : Handle) (canonical : Bytes)
  | canonicalize (call : Handle) (human : String)
  | resolveCall (call : Handle) (contract store : String)
  | transfer (call : Handle) (receiver payer : String) (coins : List Coin)
  | createContract (call : Handle) (request : CreateRequest) (gasLimit : UInt64)
  | query (call : Handle) (request : Bytes) (gasLimit : UInt64)

namespace Inquiry

/-- What is handed back for it. -/
@[reducible] def Answer : Inquiry → Type
  | get _ _ => Option Bytes
  | set _ _ _ => Unit
  | delete _ _ => Unit
  | scan _ _ _ => CursorId
  | next _ => Option Record
  | humanize _ _ => String
  | canonicalize _ _ => Bytes
  | resolveCall _ _ _ => ResolvedCall
  | transfer _ _ _ _ => Unit
  | createContract _ _ _ => String
  | query _ _ _ => Bytes

/-- The call on whose behalf it is asked. -/
def call : Inquiry → Handle
  | get call _ => call
  | set call _ _ => call
  | delete call _ => call
  | scan call _ _ => call
  | next cursor => cursor.call
  | humanize call _ => call
  | canonicalize call _ => call
  | resolveCall call _ _ => call
  | transfer call _ _ _ => call
  | createContract call _ _ => call
  | query call _ _ => call

/-- Whether a nested call is to be resolved. -/
def Resolves : Inquiry → Prop
  | resolveCall _ _ _ => True
  | _ => False

/-- Whether a cursor is to be moved on. -/
def Steps : Inquiry → Prop
  | next _ => True
  | _ => False

/-- Whether the querier is asked. -/
def Queries : Inquiry → Prop
  | query _ _ _ => True
  | _ => False

end Inquiry

namespace Host

variable (host : Host)

/-- The host's answer. -/
def answer : (q : Inquiry) → World.Action (Metered q.Answer)
  | .get call key => host.get call key
  | .set call key value => host.set call key value
  | .delete call key => host.delete call key
  | .scan call r order => host.scan call r order
  | .next cursor => host.next cursor
  | .humanize call canonical => host.humanize call canonical
  | .canonicalize call human => host.canonicalize call human
  | .resolveCall call contract store => host.resolveCall call contract store
  | .transfer call receiver payer coins => host.transfer call receiver payer coins
  | .createContract call request gasLimit => host.createContract call request gasLimit
  | .query call request gasLimit => World.query call request gasLimit

variable {host : Host} {Q : Chain → Chain → Prop}

/-- All inquiries but queries are served for the context of their call, on its meter. -/
theorem answer_withContext (host : Host) {q : Inquiry} (hq : ¬ q.Queries) :
    ∃ serve : Context → World.Attempt q.Answer,
      host.answer q = World.withContext q.call serve := by
  cases q with
  | query call request gasLimit => exact absurd trivial hq
  | get call key => exact ⟨_, rfl⟩
  | set call key value => exact ⟨_, rfl⟩
  | delete call key => exact ⟨_, rfl⟩
  | scan call r order => exact ⟨_, rfl⟩
  | next cursor => exact ⟨_, rfl⟩
  | humanize call canonical => exact ⟨_, rfl⟩
  | canonicalize call human => exact ⟨_, rfl⟩
  | resolveCall call contract store => exact ⟨_, rfl⟩
  | transfer call receiver payer coins => exact ⟨_, rfl⟩
  | createContract call request gasLimit => exact ⟨_, rfl⟩

/-- Nothing is done for a call that is not live. -/
theorem answer_dead {q : Inquiry} {w : World} {e : HostError}
    (hdead : w.registry.lookup q.call = .error e) :
    host.answer q w = (.ok (.error e, .free), w) := by
  -- A query looks its call up itself, and all others are served for the context of theirs.
  by_cases hq : q.Queries
  · cases q with
    | query call request gasLimit => exact World.query_dead hdead request gasLimit
    | _ => exact hq.elim
  · rcases answer_withContext host hq with ⟨serve, hserve⟩
    rw [hserve]
    exact World.withContext_dead serve hdead

/-- An inquiry moves along a relation that lets cursors be opened and moved, and that lets a
    call be registered if one is to be resolved. -/
theorem answer_within (hQ : Chain.Harmless Q) (hcap : host.capabilities.Within Q)
    {R : World → World → Prop} (hR : World.Follows Q R)
    (hframe : ∀ (w : World) ctx f, R w (w.setFrame ctx f)) (q : Inquiry)
    (hregister : q.Resolves → ∀ (w : World) ctx b, R w (w.registerChild ctx b).2) :
    (host.answer q).Within R := by
  cases q with
  | get call key => exact get_within hQ hR host call key
  | set call key value => exact set_within hQ hR host call key value
  | delete call key => exact delete_within hQ hR host call key
  | scan call r order => exact scan_within hQ hR host call (fun w ctx => hframe w ctx _)
  | next cursor =>
      exact World.withContext_within hR.steady cursor.call
        (fun ctx => move_within hQ hR host (fun _ w c => hframe w ctx _))
  | humanize call canonical => exact humanize_within hQ hR host hcap call canonical
  | canonicalize call human => exact canonicalize_within hQ hR host hcap call human
  | resolveCall call contract store =>
      exact resolveCall_within hR host hcap (hregister trivial) call contract store
  | transfer call receiver payer coins =>
      exact transfer_within hR host hcap call receiver payer coins
  | createContract call request gasLimit =>
      exact createContract_within hR host hcap call request gasLimit
  | query call request gasLimit =>
      -- A querier has a meter of its own, and the world is as it was.
      intro w
      rw [show (host.answer (.query call request gasLimit) w).2 = w from
        query_idle call request gasLimit w]
      exact hR.steady.refl w

/-- Only resolving a nested call touches the registry. -/
theorem answer_registry (host : Host) {q : Inquiry} (hq : ¬ q.Resolves) (w : World) :
    (host.answer q w).2.registry = w.registry := by
  have hR := World.follows_calm Chain.harmless_trivial.steady
  -- Capabilities have no access to the registry, so nothing has to be known of them.
  have hcalm := answer_within Chain.harmless_trivial host.capabilities.within_trivial hR
    (fun _ _ _ => ⟨rfl, trivial⟩) q (fun h => absurd h hq) w
  exact hcalm.registry

/-- Whichever inquiry it is, the chain moves along what the host and its capabilities move it
    along. -/
theorem answer_along (hQ : Chain.Harmless Q) (hcap : host.capabilities.Within Q) (q : Inquiry) :
    (host.answer q).Within (World.Along Q) :=
  answer_within hQ hcap (World.follows_along hQ.steady) (fun w _ _ => hQ.steady.refl w.chain) q
    (fun _ w _ _ => hQ.steady.refl w.chain)

end Host

end ContractHost
