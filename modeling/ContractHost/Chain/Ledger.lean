import ContractHost.Chain.Coin
import ContractHost.Table

/-!
# The Ledger

Balances by address and denomination. An absent balance is zero.

## Main definitions

* `Ledger`: The balances.
* `Ledger.balance`, `Ledger.put`: Reads and replaces one balance.
* `Ledger.move`: Moves one coin between two addresses.
-/

namespace ContractHost

/-- The balances of every address, by denomination. -/
abbrev Ledger := Table String (Table String Amount)

namespace Ledger

/-- The balance of an address in a denomination. -/
def balance (l : Ledger) (address denom : String) : Amount :=
  (l.getD address .empty).getD denom .zero

/-- The ledger with one balance replaced. -/
def put (l : Ledger) (address denom : String) (a : Amount) : Ledger :=
  l.set address ((l.getD address .empty).set denom a)

/-- Moves an amount: the payer's balance is written before the receiver's is read, so
    that a payment to oneself changes nothing. A receiver's balance that would not fit
    becomes the largest amount. -/
def move (l : Ledger) (payer receiver denom : String) (a : Amount) : Option Ledger := do
  let left ← (l.balance payer denom).sub? a
  -- From here on the payer has paid, also when the payer is the receiver.
  let l := l.put payer denom left
  some (l.put receiver denom ((l.balance receiver denom).add a))

end Ledger

end ContractHost
