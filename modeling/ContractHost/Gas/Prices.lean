import ContractHost.Word
import ContractHost.Document.Reader

/-!
# Gas Prices

What a storage or address operation costs. A price has a flat part, a part per byte
or both, and a multiplier applies to the whole. Every step clamps, so a price that
does not fit in a word is the largest word.

## Main definitions

* `Prices`: The price list.
* `Prices.standard`, `Prices.free`: The default list, and one that charges nothing.
* `Prices.read`, `Prices.readOutput`, `Prices.write`, `Prices.delete`,
  `Prices.iterCreate`, `Prices.iterNext`, `Prices.address`: The charges.
* `Prices.toNode`, `Prices.reader`: The list as a document.
-/

namespace ContractHost

/-- The price list. -/
structure Prices where
  readFlat : UInt64
  readPerByte : UInt64
  writeFlat : UInt64
  writePerByte : UInt64
  deleteFlat : UInt64
  iterCreateFlat : UInt64
  iterNextFlat : UInt64
  addressPerByte : UInt64
  multiplier : UInt64
deriving DecidableEq

namespace Prices

/-- The default price list. -/
def standard : Prices where
  readFlat := 1000
  readPerByte := 3
  writeFlat := 2000
  writePerByte := 30
  deleteFlat := 1000
  iterCreateFlat := 1000
  iterNextFlat := 30
  addressPerByte := 10
  multiplier := 1

/-- A list that charges nothing. -/
def free : Prices where
  readFlat := 0
  readPerByte := 0
  writeFlat := 0
  writePerByte := 0
  deleteFlat := 0
  iterCreateFlat := 0
  iterNextFlat := 0
  addressPerByte := 0
  multiplier := 1

/-! ## Charges -/

/-- A charge with the multiplier applied. -/
def scaled (p : Prices) (charge : UInt64) : UInt64 := Word.mul charge p.multiplier

/-- Charged before a read: the flat price and the bytes of the key. -/
def read (p : Prices) (keyLength : UInt64) : UInt64 :=
  p.scaled (Word.add p.readFlat (Word.mul p.readPerByte keyLength))

/-- Charged after a read or a cursor step for the bytes handed back. -/
def readOutput (p : Prices) (length : UInt64) : UInt64 :=
  p.scaled (Word.mul p.readPerByte length)

/-- Charged before a write: the flat price and the bytes of key and value. -/
def write (p : Prices) (keyLength valueLength : UInt64) : UInt64 :=
  p.scaled (Word.add p.writeFlat (Word.mul p.writePerByte (Word.add keyLength valueLength)))

/-- Charged before a removal. -/
def delete (p : Prices) : UInt64 := p.scaled p.deleteFlat

/-- Charged when a cursor is opened. -/
def iterCreate (p : Prices) : UInt64 := p.scaled p.iterCreateFlat

/-- Charged before a cursor step, the one that finds the end included. -/
def iterNext (p : Prices) : UInt64 := p.scaled p.iterNextFlat

/-- Charged before an address is converted, for the bytes of the input. -/
def address (p : Prices) (length : UInt64) : UInt64 :=
  p.scaled (Word.mul p.addressPerByte length)

/-! ## Documents -/

/-- The price list as a document. -/
def toNode (p : Prices) : Node :=
  .object
    [("read_cost_flat", .word p.readFlat), ("read_cost_per_byte", .word p.readPerByte),
      ("write_cost_flat", .word p.writeFlat), ("write_cost_per_byte", .word p.writePerByte),
      ("delete_cost", .word p.deleteFlat), ("iter_create_cost", .word p.iterCreateFlat),
      ("iter_next_cost_flat", .word p.iterNextFlat),
      ("address_cost_per_byte", .word p.addressPerByte), ("gas_mul", .word p.multiplier)]

/-- Reads a price list; a member that is not given has its default. -/
def reader (format : Format) : Reader Prices := fun depth n => do
  let f ← Reader.fieldsIn format
    ["read_cost_flat", "read_cost_per_byte", "write_cost_flat", "write_cost_per_byte",
      "delete_cost", "iter_create_cost", "iter_next_cost_flat", "address_cost_per_byte",
      "gas_mul"] depth n
  some
    { readFlat := ← f.getD "read_cost_flat" standard.readFlat Reader.word
      readPerByte := ← f.getD "read_cost_per_byte" standard.readPerByte Reader.word
      writeFlat := ← f.getD "write_cost_flat" standard.writeFlat Reader.word
      writePerByte := ← f.getD "write_cost_per_byte" standard.writePerByte Reader.word
      deleteFlat := ← f.getD "delete_cost" standard.deleteFlat Reader.word
      iterCreateFlat := ← f.getD "iter_create_cost" standard.iterCreateFlat Reader.word
      iterNextFlat := ← f.getD "iter_next_cost_flat" standard.iterNextFlat Reader.word
      addressPerByte := ← f.getD "address_cost_per_byte" standard.addressPerByte Reader.word
      multiplier := ← f.getD "gas_mul" standard.multiplier Reader.word }

end Prices

end ContractHost
