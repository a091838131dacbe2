import ContractHost.Proofs.Host.Refusals
import ContractHost.Proofs.Host.Walk
import ContractHost.Proofs.Small
import ContractHost.Proofs.Text.Hex

/-!
# Two Forms of an Address

A canonical address is any byte string but the empty one, and people write it as a mark with the
digits of the bytes behind it. A canonical address is found again from what people write for it.
The other way round only the case of the digits is lost: an address that people write is accepted
if there is a whole number of pairs of digits behind the mark, at least one, and what is written
for its canonical form is the same address with its digits in lower case. Everything else is
refused by the capability itself, whatever it is that does not fit.

The mark and the digits are looked for in the bytes of an address, not in its characters. This
makes no difference. The bytes of a text begin with those of the mark exactly if the text begins
with the mark, and a character that is no digit has no byte that could be taken for one.

A host charges for the bytes of what it is given and then passes it on. As long as the charge fits
on the meter of the call, the answer is that of the conversion, refused or not, and the charge is
all that is reported.

## Main definitions

* `Address.Spells`: What people write for an address.
* `Address.Converts`: How the two conversions behave.

## Theorems

* `Utf8.rest?_encode_iff`: What follows the bytes of a text.
* `Address.canonical_eq_ok_iff`: What is accepted, and as which bytes.
* `Address.converts`: The conversions behave as they should.
* `World.passOn_apply`: A charge that fits, and an answer that is passed on.
* `Host.addresses_convert`: Both, through the host.
-/

namespace ContractHost

/-- The bytes of a text are those of another one and some more exactly if the characters are. -/
theorem Utf8.rest?_encode_iff {s t : String} {rest : Bytes} :
    Bytes.rest? (encode s) (encode t) = some rest ↔
      ∃ cs, t = s ++ String.ofList cs ∧ rest = encodeChars cs := by
  rw [Bytes.rest?_eq_some_iff]
  constructor
  · intro h
    rcases (encodeChars_prefix_iff s.toList t.toList).mp ⟨rest, h.symm⟩ with ⟨cs, hcs⟩
    refine ⟨cs, ?_, ?_⟩
    · rw [← String.toList_inj, String.toList_append, String.toList_ofList, hcs]
    · rw [encode, encode, ← hcs] at h
      exact (List.append_cancel_left (h.symm.trans List.flatMap_append))
  · rintro ⟨cs, rfl, rfl⟩
    rw [encode, String.toList_append, String.toList_ofList]
    exact List.flatMap_append

namespace Address

/-- People write the address as the mark with these digits behind it. -/
structure Spells (human : String) (digits : List Char) : Prop where
  human_eq : human = mark ++ String.ofList digits
  ne_nil : digits ≠ []
  even : digits.length % 2 = 0
  isDigit : ∀ d ∈ digits, Hex.IsDigit d

/-- How the conversion to the canonical form and the one back to the form that people write
    behave together. -/
structure Converts (canonical : String → Except HostError Bytes)
    (human : Bytes → Except HostError String) : Prop where
  /-- A canonical address is found again. -/
  canonical_human : ∀ x, x ≠ [] → ∃ h, human x = .ok h ∧ canonical h = .ok x
  /-- What is accepted is the mark with pairs of digits behind it. -/
  accepts_iff : ∀ h, (∃ x, canonical h = .ok x) ↔ ∃ digits, Spells h digits
  /-- It is found again with its digits in lower case. -/
  human_canonical : ∀ h digits, Spells h digits →
    ∃ x, canonical h = .ok x ∧ human x = .ok (mark ++ String.ofList (digits.map Char.toLower))
  /-- Whatever is not accepted is refused by the capability. -/
  canonical_refuses : ∀ h e, canonical h = .error e → (∃ text, e = .api text) ∧ e.code = .other
  /-- So is the empty address, and no other one is refused. -/
  human_refuses : ∀ x e, human x = .error e → x = [] ∧ (∃ text, e = .api text) ∧ e.code = .other
  human_nil : ∃ e, human [] = .error e

theorem human_of_ne_nil {x : Bytes} (h : x ≠ []) : human x = .ok (mark ++ Hex.encode x) := by
  rw [human, if_neg]
  rwa [List.isEmpty_iff]

theorem spells_of_ne_nil {x : Bytes} (h : x ≠ []) :
    Spells (mark ++ Hex.encode x) (Hex.digits x) where
  human_eq := rfl
  ne_nil := by
    intro hnil
    have hlength := Hex.length_digits x
    have hpos := List.length_pos_iff.mpr h
    rw [hnil, List.length_nil] at hlength
    omega
  even := by
    rw [Hex.length_digits]
    omega
  isDigit := fun d hd => (Hex.isDigit_of_mem_digits x d hd).1

/-- Only what people write for an address is accepted, as the bytes that the digits stand for. -/
theorem canonical_eq_ok_iff {h : String} {x : Bytes} :
    canonical h = .ok x ↔ ∃ digits, Spells h digits ∧ Hex.digits x = digits.map Char.toLower := by
  constructor
  · intro hok
    unfold canonical at hok
    cases hrest : Bytes.rest? (Utf8.encode mark) (Utf8.encode h) with
    | none =>
        rw [hrest] at hok
        cases hok
    | some rest =>
        rcases Utf8.rest?_encode_iff.mp hrest with ⟨cs, hcs, rfl⟩
        simp only [hrest] at hok
        -- The digits may be wrong, or there are none, and only otherwise is there an address.
        rcases hdecode : Hex.decode (Utf8.encodeChars cs) with fault | ⟨_ | ⟨b, bytes⟩⟩
        · rw [hdecode] at hok
          cases hok
        · rw [hdecode] at hok
          cases hok
        · rw [hdecode] at hok
          cases hok
          rcases Hex.decode_eq_ok_iff.mp hdecode with ⟨heven, hdigit, hlower⟩
          refine ⟨cs, ⟨hcs, ?_, heven, hdigit⟩, hlower⟩
          rintro rfl
          cases hlower
  · rintro ⟨digits, hspells, hlower⟩
    have hrest := Utf8.rest?_encode_iff.mpr ⟨digits, hspells.human_eq, rfl⟩
    have hdecode := Hex.decode_eq_ok_iff.mpr ⟨hspells.even, hspells.isDigit, hlower⟩
    unfold canonical
    simp only [hrest, hdecode]
    cases x with
    | nil => exact absurd (List.map_eq_nil_iff.mp hlower.symm) hspells.ne_nil
    | cons b bytes => rfl

/-- The digits of an address stand for bytes. -/
theorem Spells.bytes {h : String} {digits : List Char} (hspells : Spells h digits) :
    ∃ x, x ≠ [] ∧ Hex.digits x = digits.map Char.toLower := by
  rcases Hex.pairs_of_digits 0 digits hspells.even hspells.isDigit with ⟨x, -, hlower⟩
  refine ⟨x, ?_, hlower⟩
  rintro rfl
  exact hspells.ne_nil (List.map_eq_nil_iff.mp hlower.symm)

/-- The two conversions of the address format behave so. -/
theorem converts : Converts canonical human where
  canonical_human x hx := by
    refine ⟨_, human_of_ne_nil hx, canonical_eq_ok_iff.mpr ⟨_, spells_of_ne_nil hx, ?_⟩⟩
    exact (Hex.map_toLower_digits x).symm
  accepts_iff h := by
    constructor
    · rintro ⟨x, hx⟩
      rcases canonical_eq_ok_iff.mp hx with ⟨digits, hspells, -⟩
      exact ⟨digits, hspells⟩
    · rintro ⟨digits, hspells⟩
      rcases hspells.bytes with ⟨x, -, hlower⟩
      exact ⟨x, canonical_eq_ok_iff.mpr ⟨digits, hspells, hlower⟩⟩
  human_canonical h digits hspells := by
    rcases hspells.bytes with ⟨x, hx, hlower⟩
    refine ⟨x, canonical_eq_ok_iff.mpr ⟨digits, hspells, hlower⟩, ?_⟩
    rw [human_of_ne_nil hx, Hex.encode, hlower]
  canonical_refuses h e he := by
    rcases canonical_api he with ⟨text, rfl⟩
    exact ⟨⟨text, rfl⟩, rfl⟩
  human_refuses x e he := by
    rcases human_api he with ⟨hx, text, rfl⟩
    exact ⟨hx, ⟨text, rfl⟩, rfl⟩
  human_nil := ⟨_, rfl⟩

end Address

/-- A charge that fits is reported to the unit, and what is passed on is the answer. -/
theorem World.passOn_apply {α : Type} {call : Handle} {ctx : Context} {w : World}
    (hlive : w.registry.lookup call = .ok ctx) {amount : UInt64}
    (hfits : (w.meterOf ctx).consumed.toNat + amount.toNat ≤ (w.meterOf ctx).bound.toNat)
    {serve : Context → World.Attempt α} {r : Except HostError α}
    (hserve : serve ctx = (do charge ctx amount; onChain (Attempt.ofExcept r))) :
    withContext call serve w = (.ok (r, .ofExternal amount), w.afterCharge ctx amount) := by
  -- The limit is a word, so a sum below it has not been clamped.
  have hspent : Word.sub ((w.meterOf ctx).charged amount).consumed (w.meterOf ctx).consumed =
      amount := by
    have htop := Word.toNat_le_top (w.meterOf ctx).bound
    apply UInt64.toNat.inj
    rw [Word.toNat_sub, Meter.charged, Word.toNat_add]
    omega
  -- The charge fits, so it is the answer that decides how the request ends.
  rw [withContext_live serve hlive, hserve, Attempt.bind_apply, charge_apply,
    Meter.charge_fits hfits]
  dsimp only
  rw [onChain_apply, Attempt.ofExcept_apply]
  dsimp only
  rw [meterOf_afterCharge, hspent]

namespace Host

/-- The conversions of an address behave as they should. A host with these capabilities answers
    a live call with what they come to, whenever the price of the bytes that it is given fits on
    the meter of the call, and reports that price, also if the conversion is refused. -/
theorem addresses_convert {host : Host} {querier : Querier}
    (hcap : host.capabilities = .inMemory querier) {w : World} {call : Handle} {ctx : Context}
    (hlive : w.registry.lookup call = .ok ctx) :
    Address.Converts Address.canonical Address.human ∧
      (∀ human, (w.meterOf ctx).consumed.toNat +
            (host.prices.address (Utf8.encode human).size).toNat ≤ (w.meterOf ctx).bound.toNat →
          host.canonicalize call human w =
            (.ok (Address.canonical human,
              .ofExternal (host.prices.address (Utf8.encode human).size)),
              w.afterCharge ctx (host.prices.address (Utf8.encode human).size))) ∧
      ∀ canonical, (w.meterOf ctx).consumed.toNat +
            (host.prices.address canonical.size).toNat ≤ (w.meterOf ctx).bound.toNat →
          host.humanize call canonical w =
            (.ok (Address.human canonical, .ofExternal (host.prices.address canonical.size)),
              w.afterCharge ctx (host.prices.address canonical.size)) := by
  refine ⟨Address.converts, fun human hfits => ?_, fun canonical hfits => ?_⟩
  · exact World.passOn_apply hlive hfits (by rw [hcap]; rfl)
  · exact World.passOn_apply hlive hfits (by rw [hcap]; rfl)

/-- Digits of either case on a meter that they just fit on. -/
theorem addresses_convert_of_mixed :
    Host.small.capabilities = .inMemory (.answering 1) ∧
      (World.limited 80).registry.lookup ⟨1⟩ = .ok .small ∧
      (((World.limited 80).meterOf .small).consumed.toNat +
        (Host.small.prices.address (Utf8.encode "addrfB0a").size).toNat ≤
          ((World.limited 80).meterOf .small).bound.toNat) ∧
      (Host.small.canonicalize ⟨1⟩ "addrfB0a" (World.limited 80)).1 =
        .ok (.ok [0xfb, 0x0a], .ofExternal 80) := by
  have hfits : ((World.limited 80).meterOf .small).consumed.toNat +
      (Host.small.prices.address (Utf8.encode "addrfB0a").size).toNat ≤
        ((World.limited 80).meterOf .small).bound.toNat := by decide
  refine ⟨rfl, rfl, hfits, ?_⟩
  rw [(addresses_convert rfl rfl).2.1 "addrfB0a" hfits]
  rfl

end Host

end ContractHost
