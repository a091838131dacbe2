import ContractHost.Config.Basic
import ContractHost.Document.Json

/-!
# Configurations in JSON

## Main definitions

* `Reader.ofJson?`: The value that a byte string holds in JSON.
* `LogOptions.ofJson?`, `Prices.ofJson?`: Parts of a configuration.
* `Config.ofJson?`: A configuration, unchecked.
-/

namespace ContractHost

/-- The value of a type that a byte string holds in JSON, if it holds one. -/
def Reader.ofJson? {α : Type} (r : Reader α) (b : Bytes) : Option α :=
  (Json.read? b).bind (r nestingLimit)

/-- Log options in JSON. -/
def LogOptions.ofJson? (b : Bytes) : Option LogOptions := (reader .json).ofJson? b

/-- A price list in JSON. -/
def Prices.ofJson? (b : Bytes) : Option Prices := (reader .json).ofJson? b

/-- A configuration in JSON, unchecked. -/
def Config.ofJson? (b : Bytes) : Option Config := (reader .json).ofJson? b

end ContractHost
