import ContractHost.Proofs.Chain.Meters
import ContractHost.Proofs.Small

/-!
# Payments

Coins are moved one after the other, and each of them is a step of its own: it is charged for, its
amount is read, it is taken from the payer and given to the receiver. Any of this can go wrong, and
then the transfer is refused there and then. There is no way back for the coins before. The chain
has no notion of undoing anything, neither here nor for what a contract has written before it fails.

So a transfer that is refused is a shorter transfer that goes through, of the coins before the one
that cannot be moved, and then a charge for that one. What the balances are in the end is a matter
of the shorter transfer, and if there are no coins in it they are what they were.

What a transfer that goes through does to the balances does not depend on the order of its coins:
the payer has less and the receiver has more by what the coins of a denomination come to together,
though a balance stops at the largest amount. A payment to oneself changes nothing.

## Main definitions

* `Coin.sumIn`: What coins come to in one denomination.
* `Ledger.Paid`: The balances before and after a payment.
* `Chain.Unpaid`: Why a coin is not moved.

## Theorems

* `Ledger.move_eq_none_iff`, `Ledger.move_paid`: One amount.
* `Ledger.Paid.append`: Payments add up.
* `Chain.transferCoin_cases`: One coin.
* `Chain.transfer_paid`: A transfer that goes through.
* `Chain.transfer_refused`: A transfer that is refused.
* `Capabilities.transfer_keeps_earlier`: The balances after a refusal.
-/

namespace ContractHost

/-! ## Amounts of coins -/

namespace Coin

/-- The number a coin stands for, and nothing for a coin without an amount. -/
def value (coin : Coin) : Nat := (Amount.parse? coin.amount).elim 0 Amount.value

/-- What coins come to in one denomination. -/
def sumIn (denom : String) : List Coin → Nat
  | [] => 0
  | coin :: coins => (if coin.denom = denom then coin.value else 0) + sumIn denom coins

theorem sumIn_append (denom : String) (coins coins' : List Coin) :
    sumIn denom (coins ++ coins') = sumIn denom coins + sumIn denom coins' := by
  induction coins with
  | nil => exact (Nat.zero_add _).symm
  | cons coin coins ih => rw [List.cons_append, sumIn, sumIn, ih, Nat.add_assoc]

theorem parse_eq_ok_iff {coin : Coin} {a : Amount} :
    coin.parse = .ok a ↔ Amount.parse? coin.amount = some a := by
  unfold parse
  cases Amount.parse? coin.amount with
  | none => simp only [reduceCtorEq]
  | some b => simp only [Except.ok.injEq, Option.some.injEq]

/-- A coin is refused in one way, which is that its text is no amount. -/
theorem parse_eq_error_iff {coin : Coin} {e : HostError} :
    coin.parse = .error e ↔
      Amount.parse? coin.amount = none ∧ e = .api ("invalid amount in " ++ coin.text) := by
  unfold parse
  cases Amount.parse? coin.amount with
  | none => simp only [Except.error.injEq, true_and, eq_comm]
  | some b => simp only [reduceCtorEq, false_and]

theorem sumIn_singleton {coin : Coin} {a : Amount} (h : coin.parse = .ok a) (denom : String) :
    sumIn denom [coin] = if denom = coin.denom then a.value else 0 := by
  rw [sumIn, sumIn, Nat.add_zero, value, parse_eq_ok_iff.mp h]
  simp only [Option.elim_some, eq_comm]

end Coin

/-! ## Balances -/

theorem Amount.value_injective : Function.Injective Amount.value := by
  rintro ⟨m, hm⟩ ⟨n, hn⟩ h
  dsimp only at h
  subst h
  rfl

namespace Ledger

/-- One balance is written, and all others stay. -/
theorem balance_put (l : Ledger) (address denom address' denom' : String) (a : Amount) :
    (l.put address denom a).balance address' denom' =
      if address' = address ∧ denom' = denom then a else l.balance address' denom' := by
  unfold balance put
  rw [Table.getD_set]
  by_cases haddress : address' = address
  · rw [if_pos haddress, Table.getD_set, haddress]
    simp only [true_and]
  · rw [if_neg haddress, if_neg fun h => haddress h.1]

/-- An amount cannot be moved exactly if the payer has less. -/
theorem move_eq_none_iff {l : Ledger} {payer receiver denom : String} {a : Amount} :
    l.move payer receiver denom a = none ↔ (l.balance payer denom).value < a.value := by
  unfold move Amount.sub?
  by_cases henough : a.value ≤ (l.balance payer denom).value
  · rw [if_pos henough]
    simp only [Option.bind_eq_bind, Option.bind_some, reduceCtorEq, false_iff, Nat.not_lt]
    exact henough
  · rw [if_neg henough]
    simp only [Option.bind_eq_bind, Option.bind_none, true_iff]
    omega

/-- The balances before and after a payment. -/
structure Paid (l : Ledger) (payer receiver : String) (coins : List Coin) (l' : Ledger) :
    Prop where
  others : ∀ address denom, address ≠ payer → address ≠ receiver →
    l'.balance address denom = l.balance address denom
  oneself : payer = receiver → ∀ denom, l'.balance payer denom = l.balance payer denom
  spent : payer ≠ receiver → ∀ denom,
    (l'.balance payer denom).value + Coin.sumIn denom coins = (l.balance payer denom).value
  received : payer ≠ receiver → ∀ denom, (l'.balance receiver denom).value =
    min ((l.balance receiver denom).value + Coin.sumIn denom coins) Amount.top

namespace Paid

variable {l l₁ l₂ : Ledger} {payer receiver : String} {coins coins' : List Coin}

theorem refl (l : Ledger) (payer receiver : String) : l.Paid payer receiver [] l where
  others _ _ _ _ := rfl
  oneself _ _ := rfl
  spent _ _ := rfl
  received _ denom := (Nat.min_eq_left (l.balance receiver denom).value_le_top).symm

/-- Two payments in a row add up. -/
theorem append (h : l.Paid payer receiver coins l₁) (h' : l₁.Paid payer receiver coins' l₂) :
    l.Paid payer receiver (coins ++ coins') l₂ where
  others address denom hpayer hreceiver :=
    (h'.others address denom hpayer hreceiver).trans (h.others address denom hpayer hreceiver)
  oneself heq denom := (h'.oneself heq denom).trans (h.oneself heq denom)
  spent hne denom := by
    have hfirst := h.spent hne denom
    have hrest := h'.spent hne denom
    rw [Coin.sumIn_append]
    omega
  received hne denom := by
    -- Cutting off at the top twice is cutting off the sum once.
    rw [h'.received hne denom, h.received hne denom, Coin.sumIn_append]
    omega

/-- Nothing has been paid, so all balances are the same. -/
theorem balance_eq (h : l.Paid payer receiver [] l₁) (address denom : String) :
    l₁.balance address denom = l.balance address denom := by
  -- The balance is that of the payer, of the receiver or of somebody else.
  by_cases hself : payer = receiver
  · by_cases hpayer : address = payer
    · rw [hpayer, h.oneself hself denom]
    · exact h.others address denom hpayer (hself ▸ hpayer)
  · apply Amount.value_injective
    by_cases hpayer : address = payer
    · rw [hpayer]
      exact h.spent hself denom
    · by_cases hreceiver : address = receiver
      · rw [hreceiver, h.received hself denom]
        exact Nat.min_eq_left (l.balance receiver denom).value_le_top
      · rw [h.others address denom hpayer hreceiver]

end Paid

/-- Moving the amount of a coin is a payment of the coin. -/
theorem move_paid {l l' : Ledger} {payer receiver : String} {coin : Coin} {a : Amount}
    (hparse : coin.parse = .ok a) (h : l.move payer receiver coin.denom a = some l') :
    l.Paid payer receiver [coin] l' := by
  have henough : a.value ≤ (l.balance payer coin.denom).value := by
    apply Nat.not_lt.mp
    intro hless
    rw [move_eq_none_iff.mpr hless] at h
    cases h
  have hfits := (l.balance payer coin.denom).value_le_top
  -- There is enough, so the subtraction goes through and both balances are written.
  unfold move Amount.sub? at h
  rw [if_pos henough] at h
  cases h
  constructor
  · intro address denom hpayer hreceiver
    rw [balance_put, if_neg fun h => hreceiver h.1, balance_put, if_neg fun h => hpayer h.1]
  · -- The payer's balance has been written when the receiver's is read, so the amount comes back.
    rintro rfl denom
    by_cases hdenom : denom = coin.denom
    · rw [hdenom, balance_put, if_pos ⟨rfl, rfl⟩, balance_put, if_pos ⟨rfl, rfl⟩]
      apply Amount.value_injective
      change min (_ - a.value + a.value) Amount.top = _
      omega
    · rw [balance_put, if_neg fun h => hdenom h.2, balance_put, if_neg fun h => hdenom h.2]
  · -- The payer has the amount less, and its other balances are the same.
    intro hne denom
    rw [balance_put, if_neg fun h => hne h.1, balance_put, Coin.sumIn_singleton hparse]
    by_cases hdenom : denom = coin.denom
    · rw [if_pos ⟨rfl, hdenom⟩, if_pos hdenom, hdenom]
      -- There was enough, so the subtraction is exact.
      exact Nat.sub_add_cancel henough
    · rw [if_neg fun h => hdenom h.2, if_neg hdenom, Nat.add_zero]
  · intro hne denom
    rw [balance_put, Coin.sumIn_singleton hparse]
    by_cases hdenom : denom = coin.denom
    · rw [if_pos ⟨rfl, hdenom⟩, if_pos hdenom, balance_put, if_neg fun h => hne h.1.symm, hdenom]
      rfl
    · rw [if_neg fun h => hdenom h.2, balance_put, if_neg fun h => hdenom h.2, if_neg hdenom,
        Nat.add_zero]
      exact (Nat.min_eq_left (l.balance receiver denom).value_le_top).symm

end Ledger

/-! ## Transfers -/

namespace Chain

variable {meter : MeterId} {receiver payer : String} {coins : List Coin} {c c' : Chain}

/-- The chain after the charge for a coin, refused or not. -/
def afterFee (c : Chain) (meter : MeterId) : Chain :=
  c.setMeter meter ((c.meter meter).charged transferCost)

/-- Why a coin is not moved: the charge is refused, the coin has no amount, or the payer does not
    have the amount. -/
inductive Unpaid (c : Chain) (meter : MeterId) (payer : String) (coin : Coin) : HostError → Prop
  | gas : ((c.meter meter).charged transferCost).isOver = true →
      Unpaid c meter payer coin (.outOfGas (c.meter meter).bound transferCost)
  | malformed : ¬ ((c.meter meter).charged transferCost).isOver = true →
      Amount.parse? coin.amount = none →
      Unpaid c meter payer coin (.api ("invalid amount in " ++ coin.text))
  | broke {a : Amount} : ¬ ((c.meter meter).charged transferCost).isOver = true →
      Amount.parse? coin.amount = some a → (c.ledger.balance payer coin.denom).value < a.value →
      Unpaid c meter payer coin (.api (payer ++ " cannot pay " ++ coin.text))

/-- A coin is charged for, read and moved, in this order, and the first failure ends it. -/
theorem transferCoin_apply (meter : MeterId) (receiver payer : String) (coin : Coin) (c : Chain) :
    transferCoin meter receiver payer coin c =
      if ((c.meter meter).charged transferCost).isOver = true then
        (.ok (.error (.outOfGas (c.meter meter).bound transferCost)), c.afterFee meter)
      else match coin.parse with
        | .error e => (.ok (.error e), c.afterFee meter)
        | .ok a =>
          match c.ledger.move payer receiver coin.denom a with
          | none =>
            (.ok (.error (.api (payer ++ " cannot pay " ++ coin.text))), c.afterFee meter)
          | some ledger => (.ok (.ok ()), { c.afterFee meter with ledger }) := by
  unfold transferCoin
  rw [Attempt.bind_apply, charge_apply, Meter.charge_eq]
  by_cases hover : ((c.meter meter).charged transferCost).isOver = true
  · rw [if_pos hover, if_pos hover]
    rfl
  · rw [if_neg hover, if_neg hover]
    dsimp only
    rw [Attempt.bind_apply, Attempt.ofExcept_apply]
    cases coin.parse with
    | error e => rfl
    | ok a =>
        dsimp only
        rw [Attempt.bind_apply, Attempt.get_apply]
        dsimp only
        -- The charge does not touch the ledger.
        rw [show (c.setMeter meter _).ledger = c.ledger from rfl]
        cases c.ledger.move payer receiver coin.denom a with
        | none => rfl
        | some ledger => rfl

/-- A coin is charged for and not moved, or it is paid. -/
theorem transferCoin_cases {coin : Coin} {r : Except Panic (Except HostError Unit)}
    (h : transferCoin meter receiver payer coin c = (r, c')) :
    (∃ e, r = .ok (.error e) ∧ c.Unpaid meter payer coin e ∧ c' = c.afterFee meter) ∨
      r = .ok (.ok ()) ∧ c.ledger.Paid payer receiver [coin] c'.ledger := by
  -- The three reasons come up in the order in which they are looked at.
  rw [transferCoin_apply] at h
  by_cases hover : ((c.meter meter).charged transferCost).isOver = true
  · rw [if_pos hover] at h
    cases h
    exact .inl ⟨_, rfl, .gas hover, rfl⟩
  · rw [if_neg hover] at h
    cases hparse : coin.parse with
    | error e =>
        rw [hparse] at h
        cases h
        rcases Coin.parse_eq_error_iff.mp hparse with ⟨hnone, rfl⟩
        exact .inl ⟨_, rfl, .malformed hover hnone, rfl⟩
    | ok a =>
        rw [hparse] at h
        dsimp only at h
        cases hmove : c.ledger.move payer receiver coin.denom a with
        | none =>
            rw [hmove] at h
            cases h
            exact .inl ⟨_, rfl, .broke hover (Coin.parse_eq_ok_iff.mp hparse)
              (Ledger.move_eq_none_iff.mp hmove), rfl⟩
        | some ledger =>
            rw [hmove] at h
            cases h
            exact .inr ⟨rfl, Ledger.move_paid hparse hmove⟩

/-- The coins are moved one after another, up to the first that is not. -/
theorem transfer_cons_apply (meter : MeterId) (receiver payer : String) (coin : Coin)
    (coins : List Coin) (c : Chain) :
    transfer meter receiver payer (coin :: coins) c =
      match transferCoin meter receiver payer coin c with
      | (.ok (.ok _), c₁) => transfer meter receiver payer coins c₁
      | (.ok (.error e), c₁) => (.ok (.error e), c₁)
      | (.error p, c₁) => (.error p, c₁) := by
  change (transferCoin meter receiver payer coin >>= fun _ => transfer meter receiver payer coins :
    Chain.Attempt HostError Unit) c = _
  rw [Attempt.bind_apply]
  rcases transferCoin meter receiver payer coin c with ⟨p | ⟨e | _⟩, c₁⟩
  · rfl
  · rfl
  · rfl

/-- A transfer that goes through has paid all its coins. -/
theorem transfer_paid (h : transfer meter receiver payer coins c = (.ok (.ok ()), c')) :
    c.ledger.Paid payer receiver coins c'.ledger := by
  induction coins generalizing c with
  | nil =>
      cases h
      exact .refl _ payer receiver
  | cons coin coins ih =>
      rw [transfer_cons_apply] at h
      rcases hcoin : transferCoin meter receiver payer coin c with ⟨r, c₁⟩
      rw [hcoin] at h
      rcases transferCoin_cases hcoin with ⟨e, rfl, -, -⟩ | ⟨rfl, hpaid⟩
      · cases h
      · -- This coin has been paid, and so have those behind it, from the ledger that it has left.
        exact hpaid.append (ih h)

/-- A transfer that is refused is one that goes through, of the coins before a coin that is not
    moved, and the charge for that coin. -/
theorem transfer_refused {e : HostError}
    (h : transfer meter receiver payer coins c = (.ok (.error e), c')) :
    ∃ earlier coin later c₁, coins = earlier ++ coin :: later ∧
      transfer meter receiver payer earlier c = (.ok (.ok ()), c₁) ∧
      c₁.Unpaid meter payer coin e ∧ c' = c₁.afterFee meter := by
  induction coins generalizing c with
  | nil => cases h
  | cons coin coins ih =>
      rw [transfer_cons_apply] at h
      rcases hcoin : transferCoin meter receiver payer coin c with ⟨r, c₁⟩
      rw [hcoin] at h
      -- Either this coin is the one that is not moved, or it is one of those before it.
      rcases transferCoin_cases hcoin with ⟨e', rfl, hunpaid, rfl⟩ | ⟨rfl, -⟩
      · cases h
        exact ⟨[], coin, coins, c, rfl, rfl, hunpaid, rfl⟩
      · rcases ih h with ⟨earlier, coin', later, c₂, rfl, htransfer, hunpaid, hc'⟩
        refine ⟨coin :: earlier, coin', later, c₂, rfl, ?_, hunpaid, hc'⟩
        rw [transfer_cons_apply, hcoin]
        exact htransfer

end Chain

namespace Capabilities

/-- A transfer that is refused has moved the coins before the one that it is refused for, and
    nothing else: not that coin, and none behind it. If it is refused for the first coin, all
    balances are what they were. -/
theorem transfer_keeps_earlier {querier : Querier} {ctx : Context} {receiver payer : String}
    {coins : List Coin} {c c' : Chain} {e : HostError}
    (h : (inMemory querier).transfer ctx receiver payer coins c = (.ok (.error e), c')) :
    ∃ earlier coin later c₁, coins = earlier ++ coin :: later ∧
      (inMemory querier).transfer ctx receiver payer earlier c = (.ok (.ok ()), c₁) ∧
      c₁.Unpaid ctx.binding.meter payer coin e ∧
      c.ledger.Paid payer receiver earlier c'.ledger ∧
      (earlier = [] → ∀ address denom,
        c'.ledger.balance address denom = c.ledger.balance address denom) := by
  rcases Chain.transfer_refused h with
    ⟨earlier, coin, later, c₁, hcoins, htransfer, hunpaid, rfl⟩
  -- The charge for the coin that is not moved leaves the ledger alone.
  have hpaid : c.ledger.Paid payer receiver earlier c₁.ledger := Chain.transfer_paid htransfer
  refine ⟨earlier, coin, later, c₁, hcoins, htransfer, hunpaid, hpaid, ?_⟩
  rintro rfl
  exact hpaid.balance_eq

end Capabilities

/-- A chain on which one address has five of a denomination. -/
def Chain.funded : Chain :=
  { Chain.empty with ledger := Ledger.put .empty "b" "ucc" (.clamp 5) }

/-- A coin that can be paid, and another one that cannot be paid behind it. -/
def Coin.twice : List Coin := [⟨"ucc", "5"⟩, ⟨"ucc", "1"⟩]

/-- The first coin leaves nothing to pay the second with. -/
theorem Chain.transfer_twice : ∃ c',
    (Capabilities.inMemory (.answering 1)).transfer .small "a" "b" Coin.twice Chain.funded =
      (.ok (.error (.api "b cannot pay 1ucc")), c') ∧
    (c'.ledger.balance "b" "ucc").value = 0 := by
  have hrefused : ((Capabilities.inMemory (.answering 1)).transfer .small "a" "b" Coin.twice
      Chain.funded).1 = .ok (.error (.api "b cannot pay 1ucc")) := by decide +kernel
  exact ⟨_, Prod.ext hrefused rfl, by decide +kernel⟩

/-- The first of two coins is moved, although the second one is not. -/
theorem Capabilities.transfer_keeps_earlier_of_second : ∃ c' earlier coin later,
    (inMemory (.answering 1)).transfer .small "a" "b" Coin.twice Chain.funded =
      (.ok (.error (.api "b cannot pay 1ucc")), c') ∧
    Coin.twice = earlier ++ coin :: later ∧ Chain.funded.ledger.Paid "b" "a" earlier c'.ledger := by
  rcases Chain.transfer_twice with ⟨c', hrefused, -⟩
  rcases transfer_keeps_earlier hrefused with ⟨earlier, coin, later, _, hcoins, -, -, hpaid, -⟩
  exact ⟨c', earlier, coin, later, hrefused, hcoins, hpaid⟩

/-- So a transfer that is refused may have changed balances. -/
theorem Capabilities.transfer_refused_moves :
    ¬ ∀ (querier : Querier) (ctx : Context) (receiver payer : String) (coins : List Coin)
      (c c' : Chain) (e : HostError),
      (inMemory querier).transfer ctx receiver payer coins c = (.ok (.error e), c') →
      ∀ address denom, c'.ledger.balance address denom = c.ledger.balance address denom := by
  intro h
  rcases Chain.transfer_twice with ⟨c', hrefused, hbalance⟩
  rw [h _ _ _ _ _ _ _ _ hrefused "b" "ucc"] at hbalance
  revert hbalance
  decide +kernel

end ContractHost
