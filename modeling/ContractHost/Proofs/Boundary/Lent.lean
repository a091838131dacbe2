import ContractHost.Proofs.Boundary.Malformed
import ContractHost.Proofs.Host.Records

/-!
# What Is Stored of Lent Bytes

A native engine lends the key and the value of a record, and what is stored is what can be read of
them. This is all that they declare, unless a view has no bytes to read: a null pointer is not
followed. Then there are two ways out, and both are taken, in different places. A buffer made of
such a view is absent, as if nothing had been lent. A write takes it for an empty byte string, as
if it had declared no bytes, and succeeds.

So a write keeps the declared lengths exactly as far as the views can supply them. What has been
written is read back in any case: the value is shorter than declared from the moment on at which
it is stored.

## Main definitions

* `View.Valid`: The pointer of a view is null, or there is memory behind it.
* `View.Supplies`: The view can supply the bytes that it declares.
* `View.Lends`: What can be read of a view, and how its length compares.

## Theorems

* `View.lends_of_read`: What is read of a valid view.
* `Buffer.isNone_copy_iff`: A buffer refuses a view that cannot supply its bytes.
* `Callback.Asks.code_none`: The code of success, and what it stands for.
* `Boundary.set_stores_lent`: What a write stores, and what is read afterwards.
* `Boundary.null_pointer_stored`: A null pointer with a length is stored as an empty value.
-/

namespace ContractHost

/-! ## Views -/

namespace View

/-- The pointer is null, or there is memory behind it for as many bytes as the view declares. An
    absent view may hold any pointer. -/
def Valid (v : View) : Prop :=
  v.isNil = false → ∀ b, v.pointer = some b → v.declared.toNat ≤ b.length

theorem valid_ofBytes (b : Bytes) : (ofBytes b).Valid := by
  rintro - b' hb
  cases hb
  exact (Word.toNat_clamp b.length).trans_le (Nat.min_le_left _ _)

/-- A null pointer points at nothing, so nothing is wrong with its length. -/
theorem valid_dangling (length : UInt64) : (dangling length).Valid := nofun

/-- The view can supply the bytes that it declares: it is there, and if it declares any, its
    pointer is not null. -/
structure Supplies (v : View) : Prop where
  present : v.isNil = false
  pointed : v.pointer = none → v.declared = 0

/-- The bytes can be read of the view. They are as many as it declares if it can supply them, and
    otherwise there are none. -/
structure Lends (v : View) (b : Bytes) : Prop where
  read : v.read = some b
  length_iff : b.length = v.length.toNat ↔ v.Supplies
  eq_nil : ¬ v.Supplies → b = []

/-- What is read of a valid view is what it can supply, or nothing. -/
theorem lends_of_read {v : View} {b : Bytes} (hv : v.Valid) (h : v.read = some b) :
    v.Lends b := by
  rcases v with ⟨absent, pointer, declared⟩
  cases absent with
  | true => cases h
  | false =>
      cases pointer with
      | some memory =>
          cases h
          have hsupplies : Supplies ⟨false, some memory, declared⟩ := ⟨rfl, nofun⟩
          have hlength : (memory.take declared.toNat).length = declared.toNat := by
            rw [List.length_take]
            exact Nat.min_eq_left (hv rfl memory rfl)
          exact ⟨rfl, iff_of_true hlength hsupplies, fun h => absurd hsupplies h⟩
      | none =>
          -- Nothing is read here, so the lengths agree only if nothing is declared.
          cases h
          refine ⟨rfl, ⟨fun hlength => ⟨rfl, fun _ => ?_⟩, fun hsupplies => ?_⟩, fun _ => rfl⟩
          · exact UInt64.toNat.inj hlength.symm
          · have hdeclared : declared = 0 := hsupplies.pointed rfl
            rw [hdeclared]
            rfl

end View

/-- A buffer refuses a view that cannot supply the bytes that it declares. -/
theorem Buffer.isNone_copy_iff (v : View) : (copy v).isNone = true ↔ ¬ v.Supplies := by
  rcases v with ⟨absent, pointer, declared⟩
  cases absent with
  | true => exact ⟨fun _ h => (nomatch h.present), fun _ => rfl⟩
  | false =>
      cases pointer with
      | some memory => exact ⟨nofun, fun h => absurd ⟨rfl, nofun⟩ h⟩
      | none =>
          -- A null pointer can supply nothing but no bytes at all.
          change (if declared = 0 then some [] else none).isNone = true ↔ _
          by_cases hdeclared : declared = 0
          · rw [if_pos hdeclared]
            exact ⟨nofun, fun h => absurd ⟨rfl, fun _ => hdeclared⟩ h⟩
          · rw [if_neg hdeclared]
            exact ⟨fun _ h => hdeclared (h.pointed rfl), fun _ => rfl⟩

/-! ## Success -/

namespace Callback.Asks

variable {c : Callback} {places : Places} {q : Inquiry} {write : q.Answer → c.Output} {host : Host}
  {w w' : World}

/-- The code of success stands for an answer of the host, which is written. -/
theorem code_none (h : c.Asks q write) (hplaced : c.Placed places)
    (hcode : (c.run (some host) places w).1.code = .none) :
    ∃ a gas, host.answer q w = (.ok (.ok a, gas), (c.run (some host) places w).2) ∧
      (c.run (some host) places w).1.output = some (write a) := by
  rw [h.run_apply hplaced] at hcode ⊢
  generalize host.answer q w = answer at hcode ⊢
  rcases answer with ⟨p | ⟨e | a, gas⟩, w₁⟩
  · cases hcode
  · -- A refusal has a code of its own, and none of them is that of success.
    have hzero : e.code.toInt = 0 := congrArg ErrorCode.toInt hcode
    exact absurd hzero e.toInt_code_ne_zero
  · exact ⟨a, gas, rfl, rfl⟩

/-- An answer of the host is written with the code of success. -/
theorem run_ok (h : c.Asks q write) (hplaced : c.Placed places) {a : q.Answer} {gas : Report}
    (hanswer : host.answer q w = (.ok (.ok a, gas), w')) :
    (c.run (some host) places w).1.code = .none ∧ (c.run (some host) places w).2 = w' := by
  rw [h.run_apply hplaced, hanswer]
  exact ⟨rfl, rfl⟩

end Callback.Asks

/-! ## Writes -/

namespace Boundary

variable {host : Host} {w : World} {call : UInt64} {ctx : Context} {key value : View}

/-- An absent view is refused, and nothing is stored. -/
theorem set_refused (h : key.isNil = true ∨ value.isNil = true) (places : Places) :
    (set (some host) places call key value w).1.code = .other ∧
      (set (some host) places call key value w).2 = w := by
  have hmalformed : (Callback.set call key value).Malformed (some host) places := by
    refine .inr (.inl ?_)
    rintro ⟨hkey, hvalue⟩
    rcases h with h | h
    · exact absurd (h.symm.trans hkey) (by decide)
    · exact absurd (h.symm.trans hvalue) (by decide)
  rcases Callback.malformed_iff.mp hmalformed with ⟨e, he⟩
  have hrun : set (some host) places call key value w = (Reply.refused places e, w) :=
    Callback.run_refused he w
  rw [hrun]
  exact ⟨Callback.code_of_complaint he, rfl⟩

/-- A write that succeeds was handed two views that can be read. -/
theorem present_of_set {places : Places}
    (hcode : (set (some host) places call key value w).1.code = .none) :
    key.isNil = false ∧ value.isNil = false := by
  by_contra hnot
  rw [not_and_or, Bool.not_eq_false, Bool.not_eq_false] at hnot
  rw [(set_refused hnot places).1] at hcode
  cases hcode

variable {k v : Bytes}

/-- A write that succeeds leaves the record, and all calls as they are. -/
theorem set_writes (hlive : w.registry.lookup ⟨call⟩ = .ok ctx) (hkey : key.read = some k)
    (hvalue : value.read = some v) {places : Places}
    (hcode : (set (some host) places call key value w).1.code = .none) :
    (set (some host) places call key value w).2.chain.memory ctx.binding.store.base =
        (w.chain.memory ctx.binding.store.base).set (ctx.binding.store.path ++ k) v ∧
      (set (some host) places call key value w).2.registry = w.registry := by
  have hasks : (Callback.set call key value).Asks (.set ⟨call⟩ k v) id := .set hkey hvalue
  -- The code says that the host has answered, and the record is what it has stored.
  rcases hasks.code_none trivial hcode with ⟨a, gas, hanswer, -⟩
  have hregistry := host.answer_registry (q := .set ⟨call⟩ k v) id w
  rw [hanswer] at hregistry
  exact ⟨Host.set_ok hlive hanswer, hregistry⟩

/-- A read that succeeds writes out the record. -/
theorem get_reads (hlive : w.registry.lookup ⟨call⟩ = .ok ctx) (hkey : key.read = some k)
    {places : Places} (hplace : places.first = true)
    (hcode : (get (some host) places call key w).1.code = .none) :
    (get (some host) places call key w).1.output = some
      ⟨(w.chain.memory ctx.binding.store.base).get? (ctx.binding.store.path ++ k)⟩ := by
  have hasks : (Callback.get call key).Asks (.get ⟨call⟩ k) Buffer.mk := .get hkey
  rcases hasks.code_none hplace hcode with ⟨found, gas, hanswer, houtput⟩
  rw [← Host.get_ok hlive hanswer]
  exact houtput

/-- A write that can be paid for succeeds if the store answers, and so does a read of the record
    right after it, if that can be paid for too. -/
theorem set_get_fit (hlive : w.registry.lookup ⟨call⟩ = .ok ctx) (hkey : key.read = some k)
    (hvalue : value.read = some v) (places : Places) {base : MemoryId} {pre : Bytes}
    (hshows : ctx.binding.store.Shows base pre)
    (hfits : (w.meterOf ctx).consumed.toNat + (host.prices.write k.size v.size).toNat +
        (host.prices.read k.size).toNat + (host.prices.readOutput v.size).toNat ≤
      (w.meterOf ctx).bound.toNat) :
    (set (some host) places call key value w).1.code = .none ∧
      ∀ (again : View) (places' : Places), again.read = some k → places'.first = true →
        (get (some host) places' call again
          (set (some host) places call key value w).2).1.code = .none := by
  have hfirst : (w.meterOf ctx).consumed.toNat + (host.prices.write k.size v.size).toNat ≤
      (w.meterOf ctx).bound.toNat := by omega
  -- The write can be paid for, so it succeeds and takes exactly its price from the meter.
  rcases Host.set_fits hlive hshows hfirst with ⟨gas, w₁, hset, hregistry, hpaid⟩
  have hasks : (Callback.set call key value).Asks (.set ⟨call⟩ k v) id := .set hkey hvalue
  have hplaced : (Callback.set call key value).Placed places := trivial
  rcases hasks.run_ok hplaced hset with ⟨hcode, hafter⟩
  refine ⟨hcode, fun again places' hagain hplace => ?_⟩
  change (get (some host) places' call again
    ((Callback.set call key value).run (some host) places w).2).1.code = .none
  rw [hafter]
  have hlive' : w₁.registry.lookup ⟨call⟩ = .ok ctx := by rw [hregistry, hlive]
  -- The read goes behind the same path as the write did, whatever the store is made of.
  have hfound : ((w₁.chain.memory base).under pre).get? k = some v := by
    rw [Store.get_ok (hshows.get k w₁.chain), Host.set_ok hlive hset, Table.get?_set_self]
  -- What the write has left on the meter is enough for the read.
  have hsecond : (w₁.meterOf ctx).consumed.toNat + (host.prices.read k.size).toNat +
      (host.prices.readOutput v.size).toNat ≤ (w₁.meterOf ctx).bound.toNat := by
    rw [hpaid.bound, hpaid.consumed]
    omega
  rcases Host.get_fits hlive' hshows hfound hsecond with ⟨gas', w₂, hget⟩
  have hasks' : (Callback.get call again).Asks (.get ⟨call⟩ k) Buffer.mk := .get hagain
  exact (hasks'.run_ok hplace hget).1

variable (host) in
/-- A write by a live call refuses absent views. If it succeeds, it leaves one record, with what
    can be read of the views, and a read of the key that succeeds hands back the value. Both
    succeed if they can be paid for and the store answers.

    So the key and the value are as long as the views declare exactly if the views can supply
    their bytes. If a view cannot, what is stored of it is empty, whereas a buffer refuses it. -/
theorem set_stores_lent (hlive : w.registry.lookup ⟨call⟩ = .ok ctx) (hkey : key.Valid)
    (hvalue : value.Valid) (places : Places) :
    let after := set (some host) places call key value w
    (key.isNil = true ∨ value.isNil = true → after.1.code = .other ∧ after.2 = w) ∧
    (after.1.code = .none → ∃ k v, key.Lends k ∧ value.Lends v ∧
      after.2.chain.memory ctx.binding.store.base =
        (w.chain.memory ctx.binding.store.base).set (ctx.binding.store.path ++ k) v ∧
      ∀ (again : View) (places' : Places), again.read = some k → places'.first = true →
        (get (some host) places' call again after.2).1.code = .none →
          (get (some host) places' call again after.2).1.output = some (.some v)) ∧
    (∀ k v base pre, key.read = some k → value.read = some v →
      ctx.binding.store.Shows base pre →
      (w.meterOf ctx).consumed.toNat + (host.prices.write k.size v.size).toNat +
          (host.prices.read k.size).toNat + (host.prices.readOutput v.size).toNat ≤
        (w.meterOf ctx).bound.toNat →
      after.1.code = .none ∧
        ∀ (again : View) (places' : Places), again.read = some k → places'.first = true →
          (get (some host) places' call again after.2).1.code = .none) ∧
    ((Buffer.copy key).isNone = true ↔ ¬ key.Supplies) ∧
    ((Buffer.copy value).isNone = true ↔ ¬ value.Supplies) := by
  intro after
  refine ⟨fun h => set_refused h places, fun hcode => ?_, ?_, Buffer.isNone_copy_iff key,
    Buffer.isNone_copy_iff value⟩
  · -- Success tells that both views were read, and what was read is what has been stored.
    have hpresent := present_of_set hcode
    rcases View.read_of_not_nil hpresent.1 with ⟨k, hk⟩
    rcases View.read_of_not_nil hpresent.2 with ⟨v, hv⟩
    rcases set_writes hlive hk hv hcode with ⟨hmemory, hregistry⟩
    refine ⟨k, v, View.lends_of_read hkey hk, View.lends_of_read hvalue hv, hmemory, ?_⟩
    intro again places' hagain hplace hcode'
    have hlive' : after.2.registry.lookup ⟨call⟩ = .ok ctx := by rw [hregistry, hlive]
    rw [get_reads hlive' hagain hplace hcode', hmemory, Table.get?_set_self]
    rfl
  · intro k v base pre hk hv hshows hfits
    exact set_get_fit hlive hk hv places hshows hfits

/-- A value of three bytes behind a null pointer is stored as none at all. -/
theorem set_stores_lent_of_null :
    let after := set (some .small) .all 1 (.ofBytes [107]) (.dangling 3) .small
    (World.small.registry.lookup ⟨1⟩ = .ok .small ∧ View.Valid (.ofBytes [107]) ∧
      View.Valid (.dangling 3)) ∧
    after.1.code = .none ∧
      after.2.chain.memory Chain.contractMemory =
        (World.small.chain.memory Chain.contractMemory).set (Store.contractPrefix "a" ++ [107]) [] ∧
      (get (some .small) .all 1 (.ofBytes [107]) after.2).1.output = some (.some []) ∧
      (Buffer.copy (.dangling 3)).isNone = true := by
  intro after
  have hlive : World.small.registry.lookup ⟨1⟩ = .ok .small := World.lookup_small
  have hkey : View.Valid (.ofBytes [107]) := View.valid_ofBytes [107]
  have hvalue : View.Valid (.dangling 3) := View.valid_dangling 3
  rcases set_stores_lent .small hlive hkey hvalue .all with ⟨-, hstored, hfits, -, hcopy⟩
  rcases hfits [107] [] _ _ rfl rfl (Store.shows_ofContract "a") (by decide +kernel) with
    ⟨hcode, hread⟩
  rcases hstored hcode with ⟨k, v, hk, hv, hmemory, hback⟩
  cases hk.read
  cases hv.read
  refine ⟨⟨hlive, hkey, hvalue⟩, hcode, hmemory, ?_, hcopy.mpr fun h => ?_⟩
  · exact hback (.ofBytes [107]) .all rfl rfl (hread (.ofBytes [107]) .all rfl rfl)
  · exact absurd (h.pointed rfl) (by decide)

/-- So a write that succeeds does not always store as many bytes as it was told of. -/
theorem null_pointer_stored :
    ¬ ∀ (host : Host) (w : World) (call : UInt64) (ctx : Context) (key value : View)
      (places : Places), w.registry.lookup ⟨call⟩ = .ok ctx → key.Valid → value.Valid →
      (set (some host) places call key value w).1.code = .none →
      ∃ k v, key.read = some k ∧
        ((set (some host) places call key value w).2.chain.memory ctx.binding.store.base).get?
          (ctx.binding.store.path ++ k) = some v ∧
        k.length = key.length.toNat ∧ v.length = value.length.toNat := by
  intro h
  rcases h .small .small 1 .small (.ofBytes [107]) (.dangling 3) .all World.lookup_small
    (View.valid_ofBytes [107]) (View.valid_dangling 3) (by decide +kernel) with
    ⟨k, v, hk, hv, -, hlength⟩
  cases hk
  have hempty : v = [] := Option.some.inj (hv.symm.trans (by decide +kernel))
  rw [hempty] at hlength
  exact absurd hlength (by decide)

end Boundary

end ContractHost
