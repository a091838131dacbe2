import ContractHost.Text.Blank

/-!
# Capability Lists

The capabilities a module may require are given as one text with commas between the
names. Blanks around a name do not count, and empty names are dropped.

## Main definitions

* `capabilitiesOfCsv`: The names in a text.
-/

namespace ContractHost

/-- The names in a text that separates them by commas. -/
def capabilitiesOfCsv (csv : String) : List String :=
  (((Text.splitOn ',' csv.toList).map Text.trim).filter (!·.isEmpty)).map String.ofList

end ContractHost
