import ContractHost.Chain.Address
import ContractHost.Code.Checksum
import ContractHost.Host.Capabilities
import ContractHost.Query.Answers

/-!
# Capabilities in Memory

A full set of capabilities on nothing but the chain: addresses are converted by their
digits, contracts are looked up in the contract table, coins move in the ledger, and a
created contract gets the next number as its address.

All contracts keep their storage in one memory, each behind the prefix of its address.

## Main definitions

* `Chain.registerContract`: Enters a contract in the table.
* `Chain.transfer`, `Chain.createContract`, `Chain.resolveCall`: The operations.
* `Capabilities.inMemory`: The set.
-/

namespace ContractHost

namespace Chain

/-- Gas charged for each coin moved. -/
def transferCost : UInt64 := 100

/-- Gas charged for each contract created. -/
def createCost : UInt64 := 5000

/-- Enters the code identifier of a contract, in the stead of an earlier one. -/
def registerContract (c : Chain) (address : String) (code : Bytes) : Chain :=
  { c with contracts := c.contracts.set address code }

/-- Sets a balance to the amount of a coin. -/
def setBalance (c : Chain) (address : String) (coin : Coin) : Except HostError Chain := do
  let a ← coin.parse
  return { c with ledger := c.ledger.put address coin.denom a }

/-- What a contract address stands for: the entry of the table, and a binding to the
    storage of `store` that charges the meter of the call that asks. -/
def resolveCall (querier : Querier) (ctx : Context) (contract store : String) :
    Chain.Attempt HostError Resolution := do
  match (← getThe Chain).contracts.get? contract with
  | none => throw (.notFound ("contract " ++ contract))
  | some code =>
    let binding := Binding.new (.ofContract store) ctx.binding.meter querier
    return ⟨code, (binding.withStoreAddress store).withContract contract⟩

/-- Moves one coin, for a charge. -/
def transferCoin (meter : MeterId) (receiver payer : String) (coin : Coin) :
    Chain.Attempt HostError Unit := do
  charge meter transferCost
  let a ← Attempt.ofExcept coin.parse
  let c ← getThe Chain
  match c.ledger.move payer receiver coin.denom a with
  | none => throw (.api (payer ++ " cannot pay " ++ coin.text))
  | some ledger => set { c with ledger }

/-- Moves coins one after the other; a coin that cannot be moved ends the transfer, and
    the coins before it stay moved. -/
def transfer (meter : MeterId) (receiver payer : String) (coins : List Coin) :
    Chain.Attempt HostError Unit :=
  coins.forM (transferCoin meter receiver payer)

/-- Creates a contract under the address of the next number. -/
def createContract (meter : MeterId) (request : CreateRequest) :
    Chain.Attempt HostError String := do
  charge meter createCost
  let c ← getThe Chain
  let n := c.created + 1
  let address := Address.numbered n
  set ({ c with created := n }.registerContract address (Checksum.ofCode request.code).bytes)
  return address

end Chain

namespace Capabilities

/-- Capabilities on the chain alone; calls they resolve use the given querier. -/
def inMemory (querier : Querier) : Capabilities where
  canonicalize _ human := Attempt.ofExcept (Address.canonical human)
  humanize _ canonical := Attempt.ofExcept (Address.human canonical)
  resolveCall ctx contract store := Chain.resolveCall querier ctx contract store
  transfer ctx receiver payer coins := Chain.transfer ctx.binding.meter receiver payer coins
  createContract ctx request _ := Chain.createContract ctx.binding.meter request

end Capabilities

end ContractHost
