import ContractHost.Error
import ContractHost.Text.Hex
import ContractHost.Text.Numeral
import ContractHost.Text.Utf8

/-!
# Addresses

The form of an address that people use is a fixed prefix and the hexadecimal digits
of the canonical form, which is any byte string but the empty one.

## Main definitions

* `Address.canonical`: The canonical form of an address that people use.
* `Address.human`: The form that people use of a canonical address.
* `Address.numbered`: The address of the contract with a number of creation.
-/

namespace ContractHost

namespace Address

/-- What every address that people use begins with. -/
def mark : String := "addr"

/-- The canonical form of an address that people use. -/
def canonical (human : String) : Except HostError Bytes :=
  match Bytes.rest? (Utf8.encode mark) (Utf8.encode human) with
  | none => .error (.api ("address " ++ Quoted.text human ++ " has no prefix"))
  | some digits =>
    match Hex.decode digits with
    | .error fault => .error (.api (Quoted.text human ++ ": " ++ fault.message))
    | .ok [] => .error (.api "empty address")
    | .ok b => .ok b

/-- The form that people use of a canonical address. -/
def human (canonical : Bytes) : Except HostError String :=
  if canonical.isEmpty then .error (.api "empty address")
  else .ok (mark ++ Hex.encode canonical)

/-- The address of the contract with a number of creation. -/
def numbered (n : UInt64) : String := mark ++ Numeral.padded 16 n.toNat

end Address

end ContractHost
