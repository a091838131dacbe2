import ContractHost.Code.Sha256
import ContractHost.Text.Hex

/-!
# Checksums

A checksum names a module by the SHA-256 digest of its code. Code identifiers that
come from outside may have any length; only those of thirty-two bytes are checksums.

## Main definitions

* `Checksum`: A byte string of thirty-two bytes.
* `Checksum.ofCode`: The checksum of a module's code.
* `Checksum.ofBytes?`: The checksum that a code identifier is, if its length fits.
* `Checksum.hex`: The checksum in hexadecimal digits.
-/

namespace ContractHost

/-- The name of a module. -/
structure Checksum where
  /-- The digest. -/
  bytes : Bytes
  /-- A digest has thirty-two bytes. -/
  length_bytes : bytes.length = 32
deriving DecidableEq

namespace Checksum

/-- The length of every checksum. -/
def size : Nat := 32

/-- The checksum of a module's code. -/
def ofCode (code : Bytes) : Checksum := ⟨Sha256.digest code, Sha256.length_digest code⟩

/-- The checksum that a code identifier is, if it has thirty-two bytes. -/
def ofBytes? (b : Bytes) : Option Checksum :=
  if h : b.length = 32 then some ⟨b, h⟩ else none

/-- The checksum in lower-case hexadecimal digits. -/
def hex (c : Checksum) : String := Hex.encode c.bytes

end Checksum

end ContractHost
