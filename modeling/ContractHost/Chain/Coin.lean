import ContractHost.Document.Json
import ContractHost.Document.Reader
import ContractHost.Error
import ContractHost.Text.Numeral

/-!
# Coins

A coin is an amount of a denomination, as it stands in a message. The amount is text
there, so a message can hold amounts that no ledger has; only a ledger reads it.

## Main definitions

* `Amount`: An amount a ledger can hold.
* `Amount.parse?`: The amount of a text.
* `Coin`: A denomination and the text of an amount.
* `Coin.parse`: The amount of a coin.
* `MessageInfo`: A sender with the coins attached to a call.
-/

namespace ContractHost

/-- How many amounts there are: those of 128 bits. -/
def Amount.count : Nat := UInt64.size * UInt64.size

/-- The largest amount. -/
def Amount.top : Nat := Amount.count - 1

/-- An amount a ledger can hold: a number of 128 bits. -/
structure Amount where
  value : Nat
  value_le_top : value ≤ Amount.top
deriving DecidableEq

namespace Amount

/-- The amount nearest to a number. -/
def clamp (n : Nat) : Amount := ⟨min n top, Nat.min_le_right n top⟩

/-- Nothing. -/
def zero : Amount := ⟨0, Nat.zero_le _⟩

/-- The sum, or the largest amount when the sum is larger. -/
def add (a b : Amount) : Amount := clamp (a.value + b.value)

/-- What is left of `a` when `b` is taken away, if there is enough. -/
def sub? (a b : Amount) : Option Amount :=
  if b.value ≤ a.value then
    some ⟨a.value - b.value, Nat.le_trans (Nat.sub_le _ _) a.value_le_top⟩
  else none

/-- The amount of a text: digits after an optional plus sign. -/
def parse? (s : String) : Option Amount := (Numeral.unsigned? count s).map clamp

/-- An amount in digits. -/
def text (a : Amount) : String := toString a.value

end Amount

/-- A denomination and the text of an amount. -/
structure Coin where
  denom : String
  amount : String
deriving DecidableEq

namespace Coin

/-- A coin of an amount. -/
def new (a : Amount) (denom : String) : Coin := ⟨denom, a.text⟩

/-- A coin as a user sees it: the amount directly before the denomination. -/
def text (c : Coin) : String := c.amount ++ c.denom

/-- The amount of a coin, or a complaint that names the coin. -/
def parse (c : Coin) : Except HostError Amount :=
  match Amount.parse? c.amount with
  | some a => .ok a
  | none => .error (.api ("invalid amount in " ++ c.text))

/-- A coin as a document. -/
def toNode (c : Coin) : Node := .object [("denom", .text c.denom), ("amount", .text c.amount)]

/-- Reads a coin. -/
def reader : Reader Coin := fun depth n => do
  let f ← Reader.fields ["denom", "amount"] depth n
  some { denom := ← f.get? "denom" Reader.text, amount := ← f.get? "amount" Reader.text }

/-- A list of coins as a document. -/
def listNode (coins : List Coin) : Node := .list (coins.map toNode)

/-- Reads a list of coins. -/
def listReader : Reader (List Coin) := Reader.listOf reader

end Coin

/-- What a contract learns about who called it: the sender, and the coins attached. -/
structure MessageInfo where
  sender : String
  funds : List Coin
deriving DecidableEq

namespace MessageInfo

/-- The information as a document. -/
def toNode (m : MessageInfo) : Node :=
  .object [("sender", .text m.sender), ("funds", Coin.listNode m.funds)]

/-- Reads the information. -/
def reader : Reader MessageInfo := fun depth n => do
  let f ← Reader.fields ["sender", "funds"] depth n
  some { sender := ← f.get? "sender" Reader.text, funds := ← f.get? "funds" Coin.listReader }

end MessageInfo

end ContractHost
