import ContractHost.Proofs.Chain.Payments

/-!
# Conservation of Value

Coins change hands and never come from nowhere. What all balances of a denomination come to
together is the same after a transfer as before it, or it is less. It is less only if a receiver's
balance stops at the largest amount, and that needs more coins than one balance can hold.

This does not depend on how a transfer ends. A coin that is refused leaves the ledger alone, and a
coin that is moved leaves the total alone, so any row of coins does, wherever the row breaks off.

One amount is two replacements of a balance, the payer's and then the receiver's. The receiver's
balance is read when the payer's has been replaced already, so the two may be one and the same
balance. The argument is about totals and does not notice. A replacement is accounted for by an
equation between totals, with what was there before on the other side, so that no subtraction is
needed and the two equations add up.

## Main definitions

* `Ledger.total`: What all balances of a denomination come to together.
* `Ledger.Conserves`: What a transfer keeps, whichever way it ends.

## Theorems

* `Ledger.total_put`: A total after a balance has been replaced.
* `Ledger.move_conserves`: One amount.
* `Chain.transfer_conserves`: A row of coins, wherever it breaks off.
* `Capabilities.transfer_preserves_value`: Transfers preserve value.
-/

namespace ContractHost

/-! ## Totals -/

namespace Ledger

variable {l l' : Ledger} {payer receiver denom : String}

/-- What all balances of a denomination come to together. -/
def total (l : Ledger) (denom : String) : Nat :=
  l.sumOf fun balances => (balances.getD denom .zero).value

/-- A balance that is replaced goes out of the total, and the new one comes in. -/
theorem total_put (l : Ledger) (address denom denom' : String) (a : Amount) :
    (l.put address denom a).total denom' + (l.balance address denom').value =
      l.total denom' + ((l.put address denom a).balance address denom').value := by
  -- An address has one entry, so the total loses its old balances and gets its new ones.
  have hset := Table.sumOf_set (fun balances => (balances.getD denom' Amount.zero).value) l address
    ((l.getD address .empty).set denom a)
  have hold : (l.get? address).elim 0 (fun balances => (balances.getD denom' Amount.zero).value) =
      (l.balance address denom').value := by
    unfold balance Table.getD
    cases l.get? address with
    | none => rfl
    | some balances => rfl
  have hnew : (l.put address denom a).balance address denom' =
      ((l.getD address .empty).set denom a).getD denom' .zero := by
    unfold balance put
    rw [Table.getD_set, if_pos rfl]
  rw [hnew, ← hold]
  exact hset

theorem total_put_self (l : Ledger) (address denom : String) (a : Amount) :
    (l.put address denom a).total denom + (l.balance address denom).value =
      l.total denom + a.value := by
  have h := total_put l address denom denom a
  rw [balance_put, if_pos ⟨rfl, rfl⟩] at h
  exact h

theorem total_put_of_ne (l : Ledger) (address : String) (a : Amount) {denom denom' : String}
    (hne : denom' ≠ denom) : (l.put address denom a).total denom' = l.total denom' := by
  have h := total_put l address denom denom' a
  rw [balance_put, if_neg fun heq => hne heq.2] at h
  omega

/-- No balance is more than the total: with the balance taken away, the rest is left. -/
theorem balance_le_total (l : Ledger) (address denom : String) :
    (l.balance address denom).value ≤ l.total denom := by
  have h := total_put_self l address denom .zero
  change _ = l.total denom + 0 at h
  omega

/-- What a transfer of coins keeps of the balances, whichever way it ends. -/
structure Conserves (l : Ledger) (payer receiver : String) (coins : List Coin) (l' : Ledger) :
    Prop where
  /-- No other balance changes, and none in another denomination. -/
  others : ∀ address denom, address ≠ payer ∧ address ≠ receiver ∨ denom ∉ coins.map Coin.denom →
    l'.balance address denom = l.balance address denom
  total_le : ∀ denom, l'.total denom ≤ l.total denom
  total_eq : ∀ denom, l.total denom ≤ Amount.top → l'.total denom = l.total denom

namespace Conserves

variable {l₁ l₂ : Ledger} {coins coins' : List Coin}

theorem refl (l : Ledger) (payer receiver : String) (coins : List Coin) :
    l.Conserves payer receiver coins l where
  others _ _ _ := rfl
  total_le _ := Nat.le_refl _
  total_eq _ _ := rfl

/-- Two transfers in a row keep what each of them keeps. -/
theorem append (h : l.Conserves payer receiver coins l₁)
    (h' : l₁.Conserves payer receiver coins' l₂) :
    l.Conserves payer receiver (coins ++ coins') l₂ where
  others address denom hother := by
    rw [List.map_append, List.mem_append, not_or] at hother
    rw [h'.others address denom (hother.imp_right And.right),
      h.others address denom (hother.imp_right And.left)]
  total_le denom := Nat.le_trans (h'.total_le denom) (h.total_le denom)
  total_eq denom hfits := by
    -- The total still fits in between, since it has not grown.
    have hbetween := Nat.le_trans (h.total_le denom) hfits
    rw [h'.total_eq denom hbetween, h.total_eq denom hfits]

end Conserves

/-- An amount that is moved is taken off the payer's balance, and then put on the receiver's. -/
theorem move_eq_some {a : Amount} (h : l.move payer receiver denom a = some l') :
    ∃ left : Amount, left.value + a.value = (l.balance payer denom).value ∧
      l' = (l.put payer denom left).put receiver denom
        (((l.put payer denom left).balance receiver denom).add a) := by
  have henough : a.value ≤ (l.balance payer denom).value := by
    apply Nat.not_lt.mp
    intro hless
    rw [move_eq_none_iff.mpr hless] at h
    cases h
  unfold move Amount.sub? at h
  rw [if_pos henough] at h
  cases h
  exact ⟨_, Nat.sub_add_cancel henough, rfl⟩

/-- Moving an amount never adds to the total. It takes away from it only what does not fit into
    the receiver's balance, so nothing at all if the total would fit into one balance. -/
theorem total_move {a : Amount} (h : l.move payer receiver denom a = some l') :
    l'.total denom ≤ l.total denom ∧
      (l.total denom ≤ Amount.top → l'.total denom = l.total denom) := by
  rcases move_eq_some h with ⟨left, hleft, rfl⟩
  -- First the payer's balance goes down by the amount, and the total with it.
  have hpaid := total_put_self l payer denom left
  generalize l.put payer denom left = l₁ at hpaid ⊢
  -- Then the receiver's goes up by what fits into it.
  have hreceived := total_put_self l₁ receiver denom ((l₁.balance receiver denom).add a)
  change _ = l₁.total denom + min ((l₁.balance receiver denom).value + a.value) Amount.top
    at hreceived
  -- What the receiver has had before is part of the total that the payer has left.
  have hpart := balance_le_total l₁ receiver denom
  constructor
  · omega
  · intro hfits
    omega

/-- An amount of a coin that is moved is conserved. -/
theorem move_conserves {coin : Coin} {a : Amount}
    (h : l.move payer receiver coin.denom a = some l') :
    l.Conserves payer receiver [coin] l' := by
  have hown := total_move h
  rcases move_eq_some h with ⟨left, -, rfl⟩
  generalize ((l.put payer coin.denom left).balance receiver coin.denom).add a = raised at hown ⊢
  -- Totals of other denominations do not see the two balances that are replaced.
  have hforeign : ∀ denom, denom ≠ coin.denom →
      ((l.put payer coin.denom left).put receiver coin.denom raised).total denom =
        l.total denom := by
    intro denom hne
    rw [total_put_of_ne _ _ _ hne, total_put_of_ne _ _ _ hne]
  constructor
  · intro address denom hother
    rw [List.map_singleton, List.mem_singleton] at hother
    rw [balance_put, if_neg fun heq => hother.elim (fun hne => hne.2 heq.1) fun hne => hne heq.2,
      balance_put, if_neg fun heq => hother.elim (fun hne => hne.1 heq.1) fun hne => hne heq.2]
  · intro denom
    by_cases hdenom : denom = coin.denom
    · rw [hdenom]
      exact hown.1
    · exact Nat.le_of_eq (hforeign denom hdenom)
  · intro denom hfits
    by_cases hdenom : denom = coin.denom
    · rw [hdenom] at hfits ⊢
      exact hown.2 hfits
    · exact hforeign denom hdenom

end Ledger

/-! ## Transfers -/

namespace Chain

variable {meter : MeterId} {receiver payer : String} {c c' : Chain}

/-- A coin ends well or is refused, and either way it is conserved. -/
theorem transferCoin_conserves (meter : MeterId) (receiver payer : String) (coin : Coin)
    (c : Chain) : ∃ r c', transferCoin meter receiver payer coin c = (.ok r, c') ∧
      c.ledger.Conserves payer receiver [coin] c'.ledger := by
  rw [transferCoin_apply]
  by_cases hover : ((c.meter meter).charged transferCost).isOver = true
  · rw [if_pos hover]
    exact ⟨_, _, rfl, .refl _ _ _ _⟩
  · rw [if_neg hover]
    cases coin.parse with
    | error e => exact ⟨_, _, rfl, .refl _ _ _ _⟩
    | ok a =>
        dsimp only
        cases hmove : c.ledger.move payer receiver coin.denom a with
        | none => exact ⟨_, _, rfl, .refl _ _ _ _⟩
        | some ledger => exact ⟨_, _, rfl, Ledger.move_conserves hmove⟩

/-- A row of coins is conserved, wherever it breaks off. -/
theorem transfer_conserves (meter : MeterId) (receiver payer : String) (coins : List Coin)
    (c : Chain) : ∃ r c', transfer meter receiver payer coins c = (.ok r, c') ∧
      c.ledger.Conserves payer receiver coins c'.ledger := by
  induction coins generalizing c with
  | nil => exact ⟨_, _, rfl, .refl _ _ _ _⟩
  | cons coin coins ih =>
      rw [transfer_cons_apply]
      rcases transferCoin_conserves meter receiver payer coin c with ⟨r, c₁, hcoin, hconserved⟩
      rw [hcoin]
      rcases r with e | _
      · -- The coins behind the refused one keep all that is asked of them by not being moved.
        exact ⟨_, _, rfl, hconserved.append (.refl _ _ _ coins)⟩
      · rcases ih c₁ with ⟨r', c', hrest, hconserved'⟩
        exact ⟨r', c', hrest, hconserved.append hconserved'⟩

end Chain

/-- Whichever way a transfer ends, balances of others and in denominations that are not listed
    stay as they are, and no total grows. A total that fits into one balance is the same after the
    transfer as before it. If the transfer goes through and is not one to oneself, the payer has
    less by what the listed coins come to. -/
theorem Capabilities.transfer_preserves_value (querier : Querier) (ctx : Context)
    (receiver payer : String) (coins : List Coin) (c : Chain) :
    ∃ r c', (inMemory querier).transfer ctx receiver payer coins c = (.ok r, c') ∧
      c.ledger.Conserves payer receiver coins c'.ledger ∧
      (r = .ok () → payer ≠ receiver → ∀ denom,
        (c'.ledger.balance payer denom).value + Coin.sumIn denom coins =
          (c.ledger.balance payer denom).value) := by
  rcases Chain.transfer_conserves ctx.binding.meter receiver payer coins c with
    ⟨r, c', htransfer, hconserved⟩
  refine ⟨r, c', htransfer, hconserved, ?_⟩
  rintro rfl hne
  exact (Chain.transfer_paid htransfer).spent hne

/-- Five in two parts: the payer has nothing left, and there are still five. -/
theorem Capabilities.transfer_preserves_value_of_parts : ∃ c',
    (inMemory (.answering 1)).transfer .small "a" "b" [⟨"ucc", "2"⟩, ⟨"ucc", "3"⟩] Chain.funded =
      (.ok (.ok ()), c') ∧
    c'.ledger.total "ucc" = 5 ∧ (c'.ledger.balance "b" "ucc").value + 5 = 5 := by
  have hresult : ((inMemory (.answering 1)).transfer .small "a" "b" [⟨"ucc", "2"⟩, ⟨"ucc", "3"⟩]
      Chain.funded).1 = .ok (.ok ()) := by decide +kernel
  have hfunds : Chain.funded.ledger.total "ucc" = 5 := by decide +kernel
  have hfits : Chain.funded.ledger.total "ucc" ≤ Amount.top := by decide +kernel
  rcases transfer_preserves_value (.answering 1) .small "a" "b" [⟨"ucc", "2"⟩, ⟨"ucc", "3"⟩]
    Chain.funded with ⟨r, c', htransfer, hconserved, hspent⟩
  rw [htransfer] at hresult
  cases hresult
  exact ⟨c', htransfer, (hconserved.total_eq "ucc" hfits).trans hfunds,
    hspent rfl (by decide) "ucc"⟩

end ContractHost
