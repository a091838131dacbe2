import ContractHost.Proofs.Host.Refusals
import ContractHost.Proofs.Host.Walk

/-!
# Requests at a Price

Seven requests have a price of their own in the price list: the five about storage, and the
two that convert an address. Each of them is an operation between two charges. What the
operation costs is known before it starts, and what it hands back is charged for when it is
done. `World.priced` is that row, and `Host.ask_eq` says that every one of the seven is a
case of it.

The operation itself knows nothing of meters. Whatever stands on them, a store answers in the
same way and leaves them as they are, also if it can be out. So an operation may as well be
looked at before the first charge is made, and `World.priced_apply` takes the row apart into
the two charges and what the operation would have come to without them.

## Main definitions

* `World.Unmetered`: An attempt that knows nothing of meters.
* `World.priced`: An operation between two charges.
* `PricedRequest`, `PricedAnswer`: The requests with a price of their own.
* `Host.ask`, `Host.offer`: A request, and the operation behind it.
* `PricedRequest.InOrder`: A range, if there is one, does not start after its end.

## Theorems

* `Store.get_ignores` and so on: Stores know nothing of meters.
* `World.priced_apply`: The two charges and the operation.
* `Host.offer_unmetered`: The operations know nothing of meters.
* `Host.ask_eq`: A request in order is its operation between two charges.
-/

namespace ContractHost

/-! ## What knows nothing of meters -/

/-- The chain with all of its meters replaced. -/
def Chain.withMeters (c : Chain) (t : Table MeterId Meter) : Chain := { c with meters := t }

theorem Outage.guarding_ignores {σ ε α : Type} {f : σ → σ} {read : σ → Option (Outage ε)}
    {write : σ → Outage ε → σ} {call : Attempt σ ε α} (hread : ∀ s, read (f s) = read s)
    (hwrite : ∀ s o, write (f s) o = f (write s o)) (hcall : call.Ignores f) :
    (Outage.guarding read write call).Ignores f := by
  intro s
  unfold Outage.guarding
  rw [Attempt.bind_apply, Attempt.bind_apply, Attempt.get_apply, Attempt.get_apply]
  dsimp only
  rw [hread]
  -- What an outage does next is written in the outage, which the replacement leaves alone.
  cases read s with
  | none => exact hcall s
  | some o =>
      dsimp only
      refine Attempt.Ignores.bind (fun s => ?_) (fun _ => ?_) s
      · rw [Attempt.modify_apply, Attempt.modify_apply, hwrite]
      · split
        · cases o.failure with
          | panic p => exact .panic f p
          | refuse e => exact .throw f e
        · exact hcall

namespace Store

variable (t : Table MeterId Meter)

theorem guarding_ignores {α : Type} (place : Nat) (q : StoreRequest) {call : Store.Attempt α}
    (hcall : call.Ignores fun c => c.withMeters t) :
    (guarding place q call).Ignores fun c => c.withMeters t :=
  Outage.guarding_ignores (fun _ => rfl) (fun _ _ => rfl) hcall

/-- A store does not look at meters, whatever it is asked. -/
theorem get_ignores (s : Store) (key : Bytes) : (s.get key).Ignores fun c => c.withMeters t := by
  induction s generalizing key with
  | memory id => exact fun _ => rfl
  | scope pre of ih => exact ih (pre ++ key)
  | outages place of ih => exact guarding_ignores t place .get (ih key)

theorem set_ignores (s : Store) (key value : Bytes) :
    (s.set key value).Ignores fun c => c.withMeters t := by
  induction s generalizing key with
  | memory id => exact fun _ => rfl
  | scope pre of ih => exact ih (pre ++ key)
  | outages place of ih => exact guarding_ignores t place .set (ih key)

theorem delete_ignores (s : Store) (key : Bytes) :
    (s.delete key).Ignores fun c => c.withMeters t := by
  induction s generalizing key with
  | memory id => exact fun _ => rfl
  | scope pre of ih => exact ih (pre ++ key)
  | outages place of ih => exact guarding_ignores t place .delete (ih key)

theorem seek_ignores (s : Store) (r : Range) (order : Order) :
    (s.seek r order).Ignores fun c => c.withMeters t := by
  induction s generalizing r with
  | memory id => exact fun _ => rfl
  | scope pre of ih =>
      -- The range is checked and translated before the store below is asked, and neither takes a
      -- meter.
      refine .bind (.ofExcept _ _) (fun _ => ?_)
      exact .bind (ih (Scope.outer pre r)) (fun _ => .pure _ _)
  | outages place of ih => exact guarding_ignores t place .seek (ih r)

end Store

theorem Cursor.step_ignores (t : Table MeterId Meter) (c : Cursor) (s : Store) :
    (c.step s).Ignores fun c => c.withMeters t := by
  unfold Cursor.step
  split
  · exact .pure _ _
  · refine .bind (s.seek_ignores t c.range c.order) (fun found => ?_)
    cases found with
    | none => exact .pure _ _
    | some e => exact .pure _ _

/-! ## An operation between two charges -/

namespace World

variable {α β : Type}

/-- The world with all meters replaced. -/
def withMeters (w : World) (t : Table MeterId Meter) : World :=
  { w with chain := w.chain.withMeters t }

/-- Whatever stands on the meters, the attempt ends in the same way and leaves them as they
    are. -/
def Unmetered (x : Attempt α) : Prop := ∀ t, x.Ignores fun w => w.withMeters t

/-- A request to a store is no matter of meters. -/
theorem Unmetered.onStore {x : Store.Attempt α} (hx : ∀ t, x.Ignores fun c => c.withMeters t) :
    Unmetered (onStore x) := by
  intro t
  unfold World.onStore World.onChain
  exact .focus (fun _ => rfl) (fun _ _ => rfl) (.mapError HostError.ofStore (hx t))

/-- To replace the meters by themselves is to replace nothing. -/
theorem Unmetered.meters_eq {x : Attempt α} (hx : Unmetered x) (w : World) :
    (x w).2.chain.meters = w.chain.meters := by
  have hself := hx w.chain.meters w
  change x w = _ at hself
  rw [hself]
  rfl

/-- Without charges the meter of a call stays where it is. -/
theorem Unmetered.meterOf {x : Attempt α} (hx : Unmetered x) (w : World) (ctx : Context) :
    (x w).2.meterOf ctx = w.meterOf ctx := Chain.meter_of_eq (hx.meters_eq w) ctx.binding.meter

/-- A charge before the attempt may as well be made behind it. -/
theorem Unmetered.afterCharge {x : Attempt α} (hx : Unmetered x) (w : World) (ctx : Context)
    (amount : UInt64) :
    x (w.afterCharge ctx amount) = ((x w).1, (x w).2.afterCharge ctx amount) := by
  -- A charge is one way of replacing the meters, the same one as long as they are the same.
  have hcharged : ∀ w' : World, w'.chain.meters = w.chain.meters →
      w'.afterCharge ctx amount =
        w'.withMeters (w.chain.meters.set ctx.binding.meter ((w.meterOf ctx).charged amount)) := by
    intro w' hsame
    have hmeter : w'.meterOf ctx = w.meterOf ctx := Chain.meter_of_eq hsame ctx.binding.meter
    unfold World.afterCharge withMeters Chain.setMeter Chain.withMeters
    rw [hmeter, hsame]
  rw [hcharged w rfl, hcharged _ (hx.meters_eq w)]
  exact hx _ w

/-- An operation with a charge before it, and with one behind it for what it hands back, if
    anything. -/
def priced (ctx : Context) (before : UInt64) (operation : Attempt α)
    (behind : α → Option UInt64) : Attempt α := do
  charge ctx before
  let a ← operation
  match behind a with
  | some price => charge ctx price
  | none => pure ()
  return a

/-- The first charge ends the row if it is refused. Otherwise the operation comes to what it
    would have come to without the charge, and the second charge is made behind it. -/
theorem priced_apply {operation : Attempt α} (hop : Unmetered operation) (ctx : Context)
    (before : UInt64) (behind : α → Option UInt64) (w : World) :
    priced ctx before operation behind w =
      match ((w.meterOf ctx).charge before).1 with
      | .error e => (.ok (.error e), w.afterCharge ctx before)
      | .ok () =>
        match operation w with
        | (.error p, w') => (.error p, w'.afterCharge ctx before)
        | (.ok (.error e), w') => (.ok (.error e), w'.afterCharge ctx before)
        | (.ok (.ok a), w') =>
          match behind a with
          | none => (.ok (.ok a), w'.afterCharge ctx before)
          | some price =>
            (.ok ((((w.meterOf ctx).charged before).charge price).1.map fun _ => a),
              (w'.afterCharge ctx before).afterCharge ctx price) := by
  have hmeter := hop.meterOf w ctx
  unfold priced
  rw [Attempt.bind_apply, charge_apply]
  cases ((w.meterOf ctx).charge before).1 with
  | error e => rfl
  | ok paid =>
      dsimp only
      -- The charge is put off until the operation has been seen through.
      rw [Attempt.bind_apply, hop.afterCharge]
      rcases hserved : operation w with ⟨p | e | a, w'⟩
      · rfl
      · rfl
      · rw [hserved] at hmeter
        dsimp only at hmeter ⊢
        cases behind a with
        | none => rfl
        | some price =>
            dsimp only
            rw [Attempt.bind_apply, charge_apply, meterOf_afterCharge, hmeter]
            cases (((w.meterOf ctx).charged before).charge price).1 with
            | error e => rfl
            | ok paid' => rfl

/-- The answer may be put in another form before it is charged for or afterwards. -/
theorem map_priced (f : α → β) {ctx : Context} {before : UInt64} {operation : Attempt α}
    {behind : β → Option UInt64} :
    (f <$> priced ctx before operation fun a => behind (f a) : Attempt β) =
      priced ctx before (f <$> operation) behind := by
  unfold priced
  simp only [map_bind, bind_map_left]
  -- The rows only differ in when the answer is put in its other form.
  congr 1
  funext paid
  congr 1
  funext a
  cases behind (f a) with
  | none => simp only [map_pure]
  | some price => simp only [map_bind, map_pure]

/-- A request whose answer is put in another form. -/
def answering (f : α → β) (x : Action (Metered α)) : Action (Metered β) := do
  let (r, gas) ← x
  return (r.map f, gas)

theorem answering_withContext (f : α → β) (h : Handle) (serve : Context → Attempt α) :
    answering f (withContext h serve) = withContext h fun ctx => f <$> serve ctx := by
  funext w
  unfold answering
  rw [Action.bind_apply]
  cases hlookup : w.registry.lookup h with
  | error e =>
      rw [withContext_dead _ hlookup, withContext_dead _ hlookup]
      rfl
  | ok ctx =>
      rw [withContext_live _ hlookup, withContext_live _ hlookup, Attempt.map_apply]
      rcases serve ctx w with ⟨p | r, w'⟩
      · rfl
      · rfl

theorem answering_answering {γ : Type} (g : β → γ) (f : α → β) (x : Action (Metered α)) :
    answering g (answering f x) = answering (fun a => g (f a)) x := by
  have hmap : ∀ r : Except HostError α, (r.map f).map g = r.map fun a => g (f a) := by
    intro r
    cases r with
    | error e => rfl
    | ok a => rfl
  unfold answering
  simp only [bind_assoc, pure_bind, hmap]

theorem answering_priced (f : α → β) (behind : β → Option UInt64) (h : Handle)
    (before : UInt64) (operation : Context → Attempt α) :
    answering f (withContext h fun ctx =>
        priced ctx before (operation ctx) fun a => behind (f a)) =
      withContext h fun ctx => priced ctx before (f <$> operation ctx) behind := by
  rw [answering_withContext]
  simp only [map_priced]

/-- An operation that hands back nothing to be charged for needs no second charge. -/
theorem answering_charged {f : α → β} {behind : β → Option UInt64}
    (hnone : ∀ a, behind (f a) = none) (h : Handle) (before : UInt64)
    (operation : Context → Attempt α) :
    answering f (withContext h fun ctx => charge ctx before >>= fun _ => operation ctx) =
      withContext h fun ctx => priced ctx before (f <$> operation ctx) behind := by
  rw [← answering_priced]
  -- With no answer to be charged for, the second charge is the one that does nothing.
  simp only [priced, hnone, bind_pure]

end World

/-! ## The requests -/

/-- What a contract may ask for that has a price of its own. -/
inductive PricedRequest
  | storage (q : StorageRequest)
  | canonicalize (call : Handle) (human : String)
  | humanize (call : Handle) (canonical : Bytes)

/-- What it is handed back. -/
inductive PricedAnswer
  | storage (a : StorageAnswer)
  | canonical (b : Bytes)
  | human (s : String)

namespace PricedRequest

/-- The call that asks. -/
def call : PricedRequest → Handle
  | .storage q => q.call
  | .canonicalize call _ => call
  | .humanize call _ => call

/-- What is charged before the operation. -/
def price (p : Prices) : PricedRequest → UInt64
  | .storage (.get _ key) => p.read key.size
  | .storage (.set _ key value) => p.write key.size value.size
  | .storage (.delete _ _) => p.delete
  | .storage (.scan _ _ _) => p.iterCreate
  | .storage (.next _) => p.iterNext
  | .canonicalize _ human => p.address (Utf8.encode human).size
  | .humanize _ canonical => p.address canonical.size

/-- A range, if there is one, does not start after its end. -/
def InOrder : PricedRequest → Prop
  | .storage (.scan _ r _) => r.check = .ok ()
  | _ => True

/-- Whether the request converts an address, which the host has no part in. -/
def Converts : PricedRequest → Prop
  | .storage _ => False
  | .canonicalize _ _ => True
  | .humanize _ _ => True

/-- Whether the request writes a record, removes one or opens a cursor. -/
def Writes : PricedRequest → Prop
  | .storage (.set _ _ _) => True
  | .storage (.delete _ _) => True
  | .storage (.scan _ _ _) => True
  | _ => False

/-- Only a scan can be out of order. -/
theorem scan_of_not_inOrder {q : PricedRequest} (h : ¬ q.InOrder) :
    ∃ call r order e, q = .storage (.scan call r order) ∧ r.check = .error e := by
  rcases q with (_ | _ | _ | ⟨call, r, order⟩ | _) | _ | _
  case storage.scan =>
    cases hcheck : r.check with
    | ok checked => exact absurd hcheck h
    | error e => exact ⟨call, r, order, e, rfl, hcheck⟩
  all_goals exact absurd trivial h

end PricedRequest

/-- What is charged for the bytes that are handed back, if there are any. -/
def PricedAnswer.price? (p : Prices) : PricedAnswer → Option UInt64
  | .storage (.value (some v)) => some (p.readOutput v.size)
  | .storage (.record (some e)) => some (p.readOutput (Word.add e.1.size e.2.size))
  | _ => none

namespace World

/-- Opens a cursor. -/
def openCursor (ctx : Context) (r : Range) (order : Order) : Attempt UInt64 := do
  let w ← getThe World
  let (frame, number) := (w.frameOf ctx).push r order
  MonadStateOf.set (w.setFrame ctx frame)
  return number

/-- Moves what has been found under the number of a cursor. -/
def stepCursor (ctx : Context) (number : UInt64) : Option Cursor → Attempt (Option Record)
  | none => throw (.notFound s!"iterator {number}")
  | some c => do
    let (found, c) ← onStore (c.step ctx.binding.store)
    modifyThe World fun w => w.setFrame ctx ((w.frameOf ctx).replace number c)
    return found

/-- Moves a cursor and returns the record it meets. -/
def moveCursor (ctx : Context) (number : UInt64) : Attempt (Option Record) := do
  stepCursor ctx number (((← getThe World).frameOf ctx).cursor? number)

theorem openCursor_unmetered (ctx : Context) (r : Range) (order : Order) :
    Unmetered (openCursor ctx r order) := fun _ _ => rfl

theorem stepCursor_unmetered (ctx : Context) (number : UInt64) (found : Option Cursor) :
    Unmetered (stepCursor ctx number found) := by
  intro t
  cases found with
  | none => exact .throw _ _
  | some c =>
      refine .bind ?_ (fun stepped => .bind (fun _ => rfl) (fun _ => .pure _ _))
      exact Unmetered.onStore (fun t => c.step_ignores t _) t

theorem moveCursor_unmetered (ctx : Context) (number : UInt64) :
    Unmetered (moveCursor ctx number) := by
  -- The frame is not where the meters are.
  exact fun t w => stepCursor_unmetered ctx number ((w.frameOf ctx).cursor? number) t w

/-- Without its charges a step does not run out of gas. -/
theorem moveCursor_refuses {ctx : Context} {number : UInt64} {w : World} {e : HostError}
    (h : (moveCursor ctx number w).1 = .ok (.error e)) : e.code ≠ .outOfGas := by
  change (stepCursor ctx number ((w.frameOf ctx).cursor? number) w).1 = _ at h
  -- The cursor is missing, or it asks its store.
  cases hcursor : (w.frameOf ctx).cursor? number with
  | none =>
      rw [hcursor] at h
      cases h
      exact fun h => by cases h
  | some c =>
      simp only [hcursor, stepCursor, Attempt.bind_apply] at h
      rcases hstep : onStore (c.step ctx.binding.store) w with ⟨p | e' | stepped, w'⟩
      · rw [hstep] at h
        cases h
      · rw [hstep] at h
        cases h
        exact (onStore_refuses _ w _ (by rw [hstep])).not_outOfGas
      · rw [hstep] at h
        cases h

end World

namespace Host

variable (host : Host)

/-- Serves a request. -/
def ask : PricedRequest → World.Action (Metered PricedAnswer)
  | .storage q => World.answering .storage (host.serve q)
  | .canonicalize call human => World.answering .canonical (host.canonicalize call human)
  | .humanize call canonical => World.answering .human (host.humanize call canonical)

/-- The operation behind a request, for which nothing is charged. -/
def offer (ctx : Context) : PricedRequest → World.Attempt PricedAnswer
  | .storage (.get _ key) =>
    (fun found => .storage (.value found)) <$> World.onStore (ctx.binding.store.get key)
  | .storage (.set _ key value) =>
    (fun _ => .storage .done) <$> World.onStore (ctx.binding.store.set key value)
  | .storage (.delete _ key) =>
    (fun _ => .storage .done) <$> World.onStore (ctx.binding.store.delete key)
  | .storage (.scan call r order) =>
    (fun number => .storage (.cursor ⟨call, number⟩)) <$> World.openCursor ctx r order
  | .storage (.next cursor) =>
    (fun found => .storage (.record found)) <$> World.moveCursor ctx cursor.number
  | .canonicalize _ human => .canonical <$> World.onChain (host.capabilities.canonicalize ctx human)
  | .humanize _ canonical => .human <$> World.onChain (host.capabilities.humanize ctx canonical)

variable {host : Host} {querier : Querier}

/-- Without the charges, no request has to do with meters. -/
theorem offer_unmetered {q : PricedRequest}
    (hcap : q.Converts → host.capabilities = .inMemory querier) (ctx : Context) :
    World.Unmetered (host.offer ctx q) := by
  rcases q with (⟨call, key⟩ | ⟨call, key, value⟩ | ⟨call, key⟩ | ⟨call, r, order⟩ | cursor) |
    ⟨call, human⟩ | ⟨call, canonical⟩
  · exact fun t => .map _ (World.Unmetered.onStore (fun t => Store.get_ignores t _ key) t)
  · exact fun t => .map _ (World.Unmetered.onStore (fun t => Store.set_ignores t _ key value) t)
  · exact fun t => .map _ (World.Unmetered.onStore (fun t => Store.delete_ignores t _ key) t)
  · exact fun t => .map _ (World.openCursor_unmetered ctx r order t)
  · exact fun t => .map _ (World.moveCursor_unmetered ctx cursor.number t)
  · intro t
    rw [offer, hcap trivial]
    exact .map _ (fun _ => rfl)
  · intro t
    rw [offer, hcap trivial]
    exact .map _ (fun _ => rfl)

/-- Nor does one run out of gas. -/
theorem offer_refuses {q : PricedRequest}
    (hcap : q.Converts → host.capabilities = .inMemory querier) {ctx : Context} {w : World}
    {e : HostError} (h : (host.offer ctx q w).1 = .ok (.error e)) : e.code ≠ .outOfGas := by
  rcases q with (⟨call, key⟩ | ⟨call, key, value⟩ | ⟨call, key⟩ | ⟨call, r, order⟩ | cursor) |
    ⟨call, human⟩ | ⟨call, canonical⟩
  · exact (World.onStore_refuses _ w e (Attempt.map_refuses h)).not_outOfGas
  · exact (World.onStore_refuses _ w e (Attempt.map_refuses h)).not_outOfGas
  · exact (World.onStore_refuses _ w e (Attempt.map_refuses h)).not_outOfGas
  · exact absurd (Attempt.map_refuses h) (fun h => by cases h)
  · exact World.moveCursor_refuses (Attempt.map_refuses h)
  · rw [offer, hcap trivial] at h
    exact (Address.canonical_refuses (Except.ok.inj (Attempt.map_refuses h))).not_outOfGas
  · rw [offer, hcap trivial] at h
    exact (Address.human_refuses (Except.ok.inj (Attempt.map_refuses h))).not_outOfGas

/-- What writes hands back no bytes. -/
theorem offer_writes {ctx : Context} {q : PricedRequest} (hq : q.Writes) {w : World}
    {a : PricedAnswer} (h : (host.offer ctx q w).1 = .ok (.ok a)) (p : Prices) :
    a.price? p = none := by
  rcases q with (⟨call, key⟩ | ⟨call, key, value⟩ | ⟨call, key⟩ | ⟨call, r, order⟩ | cursor) |
    ⟨call, human⟩ | ⟨call, canonical⟩
  · exact hq.elim
  · rcases Attempt.map_yields h with ⟨done, rfl⟩
    rfl
  · rcases Attempt.map_yields h with ⟨done, rfl⟩
    rfl
  · rcases Attempt.map_yields h with ⟨number, rfl⟩
    rfl
  · exact hq.elim
  · exact hq.elim
  · exact hq.elim

/-- A read is a look-up between two charges. -/
theorem get_eq (host : Host) (call : Handle) (key : Bytes) :
    host.get call key = World.withContext call fun ctx =>
      World.priced ctx (host.prices.read key.size) (World.onStore (ctx.binding.store.get key))
        fun found => (PricedAnswer.storage (.value found)).price? host.prices := by
  unfold get World.priced
  congr 1
  funext ctx
  congr 1
  funext paid
  congr 1
  funext found
  -- Only bytes that are there are charged for.
  cases found with
  | none => rfl
  | some v => rfl

/-- A step is a move of the cursor between two charges. -/
theorem move_eq (host : Host) (ctx : Context) (number : UInt64) :
    host.move ctx number = World.priced ctx host.prices.iterNext (World.moveCursor ctx number)
      fun found => (PricedAnswer.storage (.record found)).price? host.prices := by
  unfold move World.priced World.moveCursor
  congr 1
  funext paid
  -- The frame is looked at behind the first charge, in both rows.
  rw [bind_assoc]
  congr 1
  funext w
  cases (w.frameOf ctx).cursor? number with
  | none => rfl
  | some c =>
      simp only [World.stepCursor, bind_assoc, pure_bind]
      congr 1
      funext stepped
      congr 1
      funext moved
      cases stepped.1 with
      | none => rfl
      | some e => rfl

/-- To open a cursor is an operation behind one charge, for a range in order. -/
theorem scan_eq (host : Host) (call : Handle) {r : Range} (order : Order) (hr : r.check = .ok ()) :
    host.scan call r order = World.answering (fun number => ⟨call, number⟩)
      (World.withContext call fun ctx =>
        World.charge ctx host.prices.iterCreate >>= fun _ => World.openCursor ctx r order) := by
  -- A check that is passed leaves no trace.
  have hcheck : (World.onStore (Attempt.ofExcept r.check) : World.Attempt Unit) = pure () := by
    rw [hr]
    rfl
  rw [World.answering_withContext]
  unfold scan
  simp only [hcheck, pure_bind, map_bind]
  rfl

/-- A request in order is its operation between two charges. -/
theorem ask_eq (host : Host) {q : PricedRequest} (hq : q.InOrder) :
    host.ask q = World.withContext q.call fun ctx =>
      World.priced ctx (q.price host.prices) (host.offer ctx q) fun a => a.price? host.prices := by
  -- Writes, removals and scans hand back no bytes, so their second charge is none.
  rcases q with (⟨call, key⟩ | ⟨call, key, value⟩ | ⟨call, key⟩ | ⟨call, r, order⟩ | cursor) |
    ⟨call, human⟩ | ⟨call, canonical⟩
  · change World.answering _ (World.answering _ (host.get call key)) = _
    rw [World.answering_answering, get_eq]
    exact World.answering_priced _ _ call _ _
  · change World.answering _ (World.answering _ (host.set call key value)) = _
    rw [World.answering_answering]
    exact World.answering_charged (fun _ => rfl) call _ _
  · change World.answering _ (World.answering _ (host.delete call key)) = _
    rw [World.answering_answering]
    exact World.answering_charged (fun _ => rfl) call _ _
  · change World.answering _ (World.answering _ (host.scan call r order)) = _
    rw [World.answering_answering, scan_eq host call order hq, World.answering_answering]
    exact World.answering_charged (fun _ => rfl) call _ _
  · change World.answering _ (World.answering _ (host.next cursor)) = _
    rw [World.answering_answering, next]
    simp only [move_eq]
    exact World.answering_priced _ _ cursor.call _ _
  · exact World.answering_charged (fun _ => rfl) call _ _
  · exact World.answering_charged (fun _ => rfl) call _ _

end Host

end ContractHost
