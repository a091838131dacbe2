import ContractHost.Proofs.Boundary.Callback

/-!
# Callbacks That Make No Sense

A native engine can hand over anything. Before a callback asks the host for something, it looks at
what it has been given: whether there is a host, whether each view that has to be there is, whether
a text is one and a document decodes, whether a number stands for an order, and whether there are
places for what is to come back. `Callback.demands` lists these for every callback in the order in
which they are looked at, and `Demand.complaint?` says what is wrong if one of them is not met.

The first complaint is the reply. The host is not asked, so the world is as it was, whatever the
host would have done, and no gas has been used. No output is written either, not even one whose
place is there.

The demands are all there is to it. They are met exactly if there is a host, the arguments are in
order and the places are there, and then a callback asks its inquiry. So every callback either is
refused here and does nothing, or is the host's answer.

## Main definitions

* `Demand`, `Demand.Met`: Something that has to be in order, and that it is.
* `Demand.complaint?`: What is wrong with it, if it is not.
* `Callback.demands`: The demands of a callback, in order.
* `Boundary.Screened`: A step that looks at some demands first.
* `Callback.Malformed`: Something about a callback is not in order.
* `Reply.refused`: The reply to it.

## Theorems

* `Demand.met_iff`: A demand is met exactly if there is no complaint.
* `Callback.demands_met_iff`: The demands of a callback are met exactly if all is in order.
* `Callback.run_refused`: The first complaint is the reply.
* `Boundary.malformed_has_no_effect`: What makes no sense is refused and has no effect.
-/

namespace ContractHost

/-- Something that has to be in order when a callback is made. -/
inductive Demand : Type 1
  /-- There is a host. -/
  | host (state : Option Host)
  /-- A view is not absent. -/
  | view (v : View) (what : String)
  /-- A view holds a text. -/
  | text (v : View) (what : String)
  /-- A view holds a value in JSON. -/
  | document {α : Type} (reader : Reader α) (v : View) (what complaint : String)
  /-- A number stands for an order. -/
  | order (number : Int)
  /-- There is a place for an output. -/
  | place (present : Bool) (what : String)

namespace Demand

/-- The demand is met. -/
def Met : Demand → Prop
  | host state => state.isSome = true
  | view v _ => v.isNil = false
  | text v _ => ∃ s, v.Spells s
  | document reader v _ _ => ∃ a, v.Documents reader a
  | order number => number = 1 ∨ number = 2
  | place present _ => present = true

/-- The complaint about an absent view. -/
def absent (what : String) : HostError := .other (what ++ " is nil")

/-- What is wrong with the argument, if the demand is not met. -/
def complaint? : Demand → Option HostError
  | host state => if state.isSome then none else some (.other "host state is null")
  | view v what => if v.isNil then some (absent what) else none
  | text v what =>
    match v.read with
    | none => some (absent what)
    | some b =>
      match Utf8.decode b with
      | .ok _ => none
      | .error fault => some (.other (what ++ " is not utf-8: " ++ fault.message))
  | document reader v what complaint =>
    match v.read with
    | none => some (absent what)
    | some b =>
      match (Json.read? b).bind (reader nestingLimit) with
      | some _ => none
      | none => some (.other (complaint ++ ": " ++ malformedJson))
  | order number =>
    if number = 1 ∨ number = 2 then none else some (.storage (.invalidOrder number))
  | place present what => if present then none else some (.other (what ++ " output is null"))

/-- A demand is met exactly if there is no complaint. -/
theorem met_iff {d : Demand} : d.Met ↔ d.complaint? = none := by
  -- A complaint is looked for in the way in which the demand is met, so the cases are the same.
  cases d with
  | host state => cases state <;> simp [Met, complaint?]
  | view v what => cases h : v.isNil <;> simp [Met, complaint?, h]
  | text v what =>
      simp only [Met, complaint?, View.Spells]
      cases v.read with
      | none => simp
      | some b => cases h : Utf8.decode b <;> simp [h]
  | document reader v what complaint =>
      simp only [Met, complaint?, View.Documents]
      cases v.read with
      | none => simp
      | some b => cases h : (Json.read? b).bind (reader nestingLimit) <;> simp [h]
  | order number =>
      rw [complaint?]
      split
      · next h => exact ⟨fun _ => rfl, fun _ => h⟩
      · next h => exact ⟨fun hmet => absurd hmet h, nofun⟩
  | place present what => cases present <;> simp [Met, complaint?]

/-- Whatever is wrong, the code for it is that of any other failure. -/
theorem code_of_complaint {d : Demand} {e : HostError} (h : d.complaint? = some e) :
    e.code = .other := by
  -- Behind the tests that lead to it a complaint is one fixed error, and none is of its own kind.
  cases d with
  | _ =>
      simp only [complaint?] at h
      repeat' split at h
      all_goals cases h
      all_goals rfl

end Demand

/-! ## Checks -/

namespace Boundary

variable {α β : Type}

/-- The step looks at a demand and at nothing else: it hands something on, or complains. -/
inductive Checks (x : World.Attempt α) (d : Demand) : Prop
  | passes {a : α} : d.complaint? = none → x = pure a → Checks x d
  | complains {e : HostError} : d.complaint? = some e → x = throw e → Checks x d

theorem host_checks (state : Option Host) : Checks (host state) (.host state) := by
  cases state with
  | none => exact .complains rfl rfl
  | some h => exact .passes rfl rfl

theorem bytes_checks (v : View) (what : String) : Checks (bytes v what) (.view v what) := by
  rcases v with ⟨absent, pointer, declared⟩
  cases absent with
  | true => exact .complains rfl rfl
  | false =>
      -- A null pointer is read as no bytes, and that is not an absent view.
      cases pointer with
      | none => exact .passes rfl rfl
      | some b => exact .passes rfl rfl

theorem text_checks (v : View) (what : String) : Checks (text v what) (.text v what) := by
  cases hread : v.read with
  | none =>
      refine .complains (by simp only [Demand.complaint?, hread]; rfl) ?_
      unfold text bytes
      rw [hread]
      rfl
  | some b =>
      -- The view is there, so the text stands or falls with its bytes.
      have htext : text v what = match Utf8.decode b with
          | .ok s => pure s
          | .error fault => throw (.other (what ++ " is not utf-8: " ++ fault.message)) := by
        unfold text
        rw [bytes_of_read hread]
        rfl
      cases hdecode : Utf8.decode b with
      | ok s =>
          rw [hdecode] at htext
          exact .passes (by simp only [Demand.complaint?, hread, hdecode]) htext
      | error fault =>
          rw [hdecode] at htext
          exact .complains (by simp only [Demand.complaint?, hread, hdecode]) htext

theorem document_checks (reader : Reader α) (v : View) (what complaint : String) :
    Checks (document reader v what complaint) (.document reader v what complaint) := by
  cases hread : v.read with
  | none =>
      refine .complains (by simp only [Demand.complaint?, hread]; rfl) ?_
      unfold document bytes
      rw [hread]
      rfl
  | some b =>
      -- The view is there, so the document stands or falls with its bytes.
      have hdocument : document reader v what complaint =
          match (Json.read? b).bind (reader nestingLimit) with
          | some a => pure a
          | none => throw (.other (complaint ++ ": " ++ malformedJson)) := by
        unfold document
        rw [bytes_of_read hread]
        rfl
      cases hvalue : (Json.read? b).bind (reader nestingLimit) with
      | some a =>
          rw [hvalue] at hdocument
          exact .passes (by simp only [Demand.complaint?, hread, hvalue]) hdocument
      | none =>
          rw [hvalue] at hdocument
          exact .complains (by simp only [Demand.complaint?, hread, hvalue]) hdocument

theorem order_checks (number : Int) :
    Checks (World.onStore (Attempt.ofExcept (Order.ofInt number))) (.order number) := by
  unfold Order.ofInt
  by_cases hup : number = 1
  · rw [if_pos hup]
    exact .passes (if_pos (.inl hup)) rfl
  · by_cases hdown : number = 2
    · rw [if_neg hup, if_pos hdown]
      exact .passes (if_pos (.inr hdown)) rfl
    · rw [if_neg hup, if_neg hdown]
      exact .complains (if_neg (not_or.mpr ⟨hup, hdown⟩)) rfl

theorem place_checks (present : Bool) (what : String) :
    Checks (place present what) (.place present what) := by
  cases present with
  | true => exact .passes rfl rfl
  | false => exact .complains rfl rfl

/-- The step looks at the demands one after the other before it does anything. -/
def Screened (x : World.Attempt α) (ds : List Demand) : Prop :=
  ∀ e, ds.findSome? Demand.complaint? = some e → x = throw e

theorem Screened.nil (x : World.Attempt α) : Screened x [] := nofun

/-- A step that looks at one demand first, and at the others if that is met. -/
theorem Screened.cons {x : World.Attempt α} {f : α → World.Attempt β} {d : Demand}
    {ds : List Demand} (hx : Checks x d) (hf : ∀ a, Screened (f a) ds) :
    Screened (x >>= f) (d :: ds) := by
  intro e he
  rw [List.findSome?_cons] at he
  cases hx with
  | passes hd hpure =>
      rw [hd] at he
      rw [hpure, pure_bind]
      exact hf _ e he
  | complains hd hthrow =>
      rw [hd] at he
      cases he
      rw [hthrow]
      rfl

/-- A step that complains about what it looks at is served like the complaint. -/
theorem Screened.serve_eq {x : World.Attempt (Metered α)} {ds : List Demand} {e : HostError}
    (h : Screened x ds) (he : ds.findSome? Demand.complaint? = some e) (name : String)
    (places : Places) : serve name places x = serve name places (throw e) := by
  rw [h e he]

end Boundary

/-- The reply to a callback that is refused before the host is asked. -/
def Reply.refused {α : Type} (places : Places) (e : HostError) : Reply α where
  code := e.code
  gas := if places.gas then some 0 else none
  error := if places.error then some e.message else none
  output := none

/-- A complaint is replied to in one way, and nothing happens to the world. -/
theorem Boundary.serve_throw {α : Type} (name : String) (places : Places) (e : HostError)
    (w : World) : serve (α := α) name places (throw e) w = (Reply.refused places e, w) := rfl

namespace Callback

/-- The demands of a callback, in the order in which they are looked at. -/
def demands (state : Option Host) (places : Places) (c : Callback) : List Demand :=
  .host state :: match c with
    | get _ key => [.view key "key", .place places.first "value"]
    | set _ key value => [.view key "key", .view value "value"]
    | delete _ key => [.view key "key"]
    | scan _ _ _ order => [.order order, .place places.first "iterator"]
    | next _ _ => [.place places.first "key", .place places.second "value"]
    | humanize _ input =>
      [.view input "canonical address", .place places.first "human address"]
    | canonicalize _ input =>
      [.text input "human address", .place places.first "canonical address"]
    | resolveCall _ contract store =>
      [.text contract "contract address", .text store "store address",
        .place places.first "checksum", .place places.second "call id"]
    | transfer _ contract payer coins =>
      [.text contract "contract address", .text payer "caller",
        .document Coin.listReader coins "coins" "coins"]
    | createContract _ _ request =>
      [.document CreateRequest.reader request "request" "create request",
        .place places.first "address"]
    | query _ _ request => [.view request "request", .place places.first "result"]

/-- The first complaint about a callback, if there is any. -/
def complaint? (state : Option Host) (places : Places) (c : Callback) : Option HostError :=
  (c.demands state places).findSome? Demand.complaint?

/-- The demands are met exactly if there is a host, the arguments are in order and the places for
    the outputs are there. -/
theorem demands_met_iff {state : Option Host} {places : Places} {c : Callback} :
    (∀ d ∈ c.demands state places, d.Met) ↔
      state.isSome = true ∧ c.WellFormed ∧ c.Placed places := by
  cases c <;>
    simp [demands, Demand.Met, WellFormed, Placed, and_assoc]

open Boundary in
/-- The first complaint is the reply. -/
theorem run_refused {state : Option Host} {places : Places} {c : Callback} {e : HostError}
    (h : c.complaint? state places = some e) (w : World) :
    c.run state places w = (.refused places e, w) := by
  have hserve : c.run state places = serve c.name places (throw e) := by
    have hhost := host_checks state
    -- The demands of a callback are its tests, in their order, so each case names the tests one by
    -- one.
    cases c with
    | get call key =>
        exact (Screened.cons hhost fun _ => .cons (bytes_checks key _) fun _ =>
          .cons (place_checks _ _) fun _ => .nil _).serve_eq h _ places
    | set call key value =>
        exact (Screened.cons hhost fun _ => .cons (bytes_checks key _) fun _ =>
          .cons (bytes_checks value _) fun _ => .nil _).serve_eq h _ places
    | delete call key =>
        exact (Screened.cons hhost fun _ => .cons (bytes_checks key _) fun _ =>
          .nil _).serve_eq h _ places
    | scan call start stop order =>
        exact (Screened.cons hhost fun _ => .cons (order_checks order) fun _ =>
          .cons (place_checks _ _) fun _ => .nil _).serve_eq h _ places
    | next call number =>
        exact (Screened.cons hhost fun _ => .cons (place_checks _ _) fun _ =>
          .cons (place_checks _ _) fun _ => .nil _).serve_eq h _ places
    | humanize call input =>
        exact (Screened.cons hhost fun _ => .cons (bytes_checks input _) fun _ =>
          .cons (place_checks _ _) fun _ => .nil _).serve_eq h _ places
    | canonicalize call input =>
        exact (Screened.cons hhost fun _ => .cons (text_checks input _) fun _ =>
          .cons (place_checks _ _) fun _ => .nil _).serve_eq h _ places
    | resolveCall call contract store =>
        exact (Screened.cons hhost fun _ => .cons (text_checks contract _) fun _ =>
          .cons (text_checks store _) fun _ => .cons (place_checks _ _) fun _ =>
            .cons (place_checks _ _) fun _ => .nil _).serve_eq h _ places
    | transfer call contract payer coins =>
        exact (Screened.cons hhost fun _ => .cons (text_checks contract _) fun _ =>
          .cons (text_checks payer _) fun _ => .cons (document_checks _ coins _ _) fun _ =>
            .nil _).serve_eq h _ places
    | createContract call gasLimit request =>
        exact (Screened.cons hhost fun _ => .cons (document_checks _ request _ _) fun _ =>
          .cons (place_checks _ _) fun _ => .nil _).serve_eq h _ places
    | query call gasLimit request =>
        exact (Screened.cons hhost fun _ => .cons (bytes_checks request _) fun _ =>
          .cons (place_checks _ _) fun _ => .nil _).serve_eq h _ places
  rw [hserve]
  exact serve_throw _ places e w

/-- There is no host, an argument is out of order, or a place for an output is not there. -/
def Malformed (state : Option Host) (places : Places) (c : Callback) : Prop :=
  state = none ∨ ¬ c.WellFormed ∨ ¬ c.Placed places

/-- There is something to complain about a callback exactly if it is malformed. -/
theorem malformed_iff {state : Option Host} {places : Places} {c : Callback} :
    c.Malformed state places ↔ ∃ e, c.complaint? state places = some e := by
  rw [← Option.isSome_iff_exists, ← Option.ne_none_iff_isSome, complaint?, Ne,
    List.findSome?_eq_none_iff]
  simp only [← Demand.met_iff]
  rw [demands_met_iff, Malformed, not_and_or, not_and_or, Option.not_isSome_iff_eq_none]

/-- Whatever is wrong with a callback, the code for it is that of any other failure. -/
theorem code_of_complaint {state : Option Host} {places : Places} {c : Callback} {e : HostError}
    (h : c.complaint? state places = some e) : e.code = .other := by
  rcases List.exists_of_findSome?_eq_some h with ⟨d, -, hd⟩
  exact Demand.code_of_complaint hd

end Callback

namespace Boundary

/-- Handing out the cache takes a host and a place for it. -/
theorem cache_refused {state : Option Host} {places : Places}
    (h : state = none ∨ places.first = false) (w : World) :
    ∃ e : HostError, e.code = .other ∧
      cache state places w = (.refused { places with gas := false } e, w) := by
  cases state with
  | none => exact ⟨.other "host state is null", rfl, rfl⟩
  | some host =>
      have hplace : places.first = false := h.resolve_left nofun
      refine ⟨.other "cache output is null", rfl, ?_⟩
      unfold cache
      rw [hplace]
      rfl

/-- What makes no sense is refused with the code of other failures and has no effect. For a
    malformed callback that code is returned, a gas of zero and the complaint are written where
    there are places for them, and nothing else is written; the world is what it was. It is the
    same for the cache, which has no place for gas, and for a release without a host, which
    returns a code only. -/
theorem malformed_has_no_effect (state : Option Host) (places : Places) (w : World) :
    (∀ c : Callback, c.Malformed state places →
      ∃ e : HostError, c.complaint? state places = some e ∧
        c.run state places w =
          ({ code := .other
             gas := if places.gas then some 0 else none
             error := if places.error then some e.message else none
             output := none }, w)) ∧
    (state = none ∨ places.first = false →
      ∃ e : HostError, cache state places w =
        ({ code := .other
           gas := none
           error := if places.error then some e.message else none
           output := none }, w)) ∧
    ∀ call, release none call w = (.other, w) := by
  refine ⟨fun c hc => ?_, fun h => ?_, fun call => rfl⟩
  · -- The first complaint is the reply, and its code is known.
    rcases Callback.malformed_iff.mp hc with ⟨e, he⟩
    refine ⟨e, he, ?_⟩
    rw [Callback.run_refused he, Reply.refused, Callback.code_of_complaint he]
  · rcases cache_refused h w with ⟨e, hcode, hrun⟩
    refine ⟨e, ?_⟩
    rw [hrun, Reply.refused, hcode]
    rfl

/-- Coins that are no document move nothing, and a null place gets no cache. -/
theorem malformed_has_no_effect_of_coins :
    let c := Callback.transfer 1 (.ofBytes []) (.ofBytes []) (.ofBytes [0x5b])
    (c.Malformed (some .small) .all ∧
      c.run (some .small) .all .small =
        (⟨.other, some 0, some ("coins: " ++ malformedJson), none⟩, .small)) ∧
    (∃ e : HostError, cache (some .small) { Places.all with first := false } .small =
      (⟨.other, none, some e.message, none⟩, .small)) ∧
    release none 1 .small = (.other, .small) := by
  intro c
  have hcomplaint : c.complaint? (some .small) .all =
      some (.other ("coins: " ++ malformedJson)) := by decide +kernel
  have hmalformed : c.Malformed (some .small) .all := Callback.malformed_iff.mpr ⟨_, hcomplaint⟩
  rcases (malformed_has_no_effect (some .small) .all .small).1 c hmalformed with ⟨e, he, hrun⟩
  rw [hcomplaint] at he
  cases he
  rcases malformed_has_no_effect (some .small) { Places.all with first := false } .small with
    ⟨-, hcache, -⟩
  exact ⟨⟨hmalformed, hrun⟩, hcache (.inr rfl), (malformed_has_no_effect none .all .small).2.2 1⟩

end Boundary

end ContractHost
