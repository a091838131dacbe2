import ContractHost.Code.Checksum
import ContractHost.Document.Json
import ContractHost.Document.Reader
import ContractHost.Error
import ContractHost.Table

/-!
# The Module Cache

Modules are kept by checksum. Pinned ones stay in a part of the cache that is counted
on its own. Loading counts as a hit of the part where the module is, or as a miss.

What a module requires is read off its code: the exports of an entry point, and marks
that name a capability.

## Main definitions

* `Metrics`: The counters of a cache.
* `Analysis`: What a module has and requires.
* `ModuleCache`: Modules, pins and counters.
* `ModuleCache.save`, `ModuleCache.load`, `ModuleCache.pin`, `ModuleCache.unpin`,
  `ModuleCache.analyze`: The operations.
-/

namespace ContractHost

/-- The counters of a cache. -/
structure Metrics where
  hitsPinned : UInt32
  hitsMemory : UInt32
  hitsFiles : UInt32
  misses : UInt32
  elementsPinned : UInt64
  elementsMemory : UInt64
  sizePinned : UInt64
  sizeMemory : UInt64
deriving DecidableEq

namespace Metrics

/-- The counters of a cache that nobody has used. -/
def zero : Metrics := ⟨0, 0, 0, 0, 0, 0, 0, 0⟩

/-- The counters by name. -/
def named (m : Metrics) : List (String × Nat) :=
  [("hits_pinned_memory_cache", m.hitsPinned.toNat), ("hits_memory_cache", m.hitsMemory.toNat),
    ("hits_fs_cache", m.hitsFiles.toNat), ("misses", m.misses.toNat),
    ("elements_pinned_memory_cache", m.elementsPinned.toNat),
    ("elements_memory_cache", m.elementsMemory.toNat),
    ("size_pinned_memory_cache", m.sizePinned.toNat),
    ("size_memory_cache", m.sizeMemory.toNat)]

/-- The counters as a document. -/
def toNode (m : Metrics) : Node := .object (m.named.map fun c => (c.1, .integer c.2))

/-- Reads counters. -/
def reader : Reader Metrics := fun depth n => do
  let f ← Reader.fields
    ["hits_pinned_memory_cache", "hits_memory_cache", "hits_fs_cache", "misses",
      "elements_pinned_memory_cache", "elements_memory_cache", "size_pinned_memory_cache",
      "size_memory_cache"] depth n
  some
    { hitsPinned := ← f.get? "hits_pinned_memory_cache" Reader.word32
      hitsMemory := ← f.get? "hits_memory_cache" Reader.word32
      hitsFiles := ← f.get? "hits_fs_cache" Reader.word32
      misses := ← f.get? "misses" Reader.word32
      elementsPinned := ← f.get? "elements_pinned_memory_cache" Reader.word
      elementsMemory := ← f.get? "elements_memory_cache" Reader.word
      sizePinned := ← f.get? "size_pinned_memory_cache" Reader.word
      sizeMemory := ← f.get? "size_memory_cache" Reader.word }

/-- The counters in the form of a diagnostic of their cache. -/
def diagnostic (m : Metrics) : String :=
  "CacheHandle(Metrics \x7b " ++
    ", ".intercalate (m.named.map fun c => c.1 ++ ": " ++ toString c.2) ++ " \x7d)"

end Metrics

/-- What a module has and requires. -/
structure Analysis where
  hasIbcEntryPoints : Bool
  requiredFeatures : List String
deriving DecidableEq

namespace Analysis

/-- An analysis as a document. -/
def toNode (a : Analysis) : Node :=
  .object
    [("has_ibc_entry_points", .bool a.hasIbcEntryPoints),
      ("required_features", .strings a.requiredFeatures)]

/-- Reads an analysis. -/
def reader : Reader Analysis := fun depth n => do
  let f ← Reader.fields ["has_ibc_entry_points", "required_features"] depth n
  some
    { hasIbcEntryPoints := ← f.get? "has_ibc_entry_points" Reader.bool
      requiredFeatures := ← f.get? "required_features" (Reader.listOf Reader.text) }

/-- The capabilities that a module can name. -/
def knownFeatures : List String := ["iterator", "staking", "stargate", "cosmwasm_1_1"]

/-- What a module's code shows. -/
def ofCode (code : Bytes) : Analysis where
  hasIbcEntryPoints := Bytes.contains (Utf8.encode "ibc_channel_open") code
  requiredFeatures :=
    knownFeatures.filter fun name => Bytes.contains (Utf8.encode ("requires_" ++ name)) code

end Analysis

namespace Checksum

/-- A checksum as a document: the list of its bytes. -/
def toNode (c : Checksum) : Node := .list (c.bytes.map fun b => .integer b.toNat)

/-- Reads a checksum. -/
def reader : Reader Checksum := fun depth n =>
  (Reader.listOf Reader.byte depth n).bind ofBytes?

/-- The checksum of a code identifier from outside, or a complaint about its length. -/
def ofIdentifier (b : Bytes) : Except HostError Checksum :=
  match ofBytes? b with
  | some c => .ok c
  | none => .error (.invalidChecksum b.length)

end Checksum

/-- Modules, pins and counters. -/
structure ModuleCache where
  /-- The code of every saved module, by the bytes of its checksum. -/
  codes : Table Bytes Bytes
  /-- The pinned checksums. -/
  pinned : Table Bytes Unit
  metrics : Metrics

namespace ModuleCache

/-- The cache without modules. -/
def empty : ModuleCache := ⟨.empty, .empty, .zero⟩

/-- The complaint about a module that is not there. -/
def missing (c : Checksum) : HostError := .notFound ("code " ++ c.hex)

/-- Saves a module under its checksum. A module saved before is not counted again. -/
def save (cache : ModuleCache) (code : Bytes) : Except HostError Checksum × ModuleCache :=
  if code.isEmpty then (.error (.other "empty module"), cache)
  else
    let c := Checksum.ofCode code
    let m := cache.metrics
    let metrics :=
      if cache.codes.contains c.bytes then m
      else
        { m with
          elementsMemory := m.elementsMemory + 1
          sizeMemory := m.sizeMemory + code.size }
    (.ok c, { cache with codes := cache.codes.set c.bytes code, metrics })

/-- Loads a module. -/
def load (cache : ModuleCache) (c : Checksum) : Except HostError Bytes × ModuleCache :=
  let m := cache.metrics
  match cache.codes.get? c.bytes with
  | some code =>
    let metrics :=
      if cache.pinned.contains c.bytes then { m with hitsPinned := m.hitsPinned + 1 }
      else { m with hitsMemory := m.hitsMemory + 1 }
    (.ok code, { cache with metrics })
  | none => (.error (missing c), { cache with metrics := { m with misses := m.misses + 1 } })

/-- Pins a module that has been saved. -/
def pin (cache : ModuleCache) (c : Checksum) : Except HostError Unit × ModuleCache :=
  match cache.codes.get? c.bytes with
  | none => (.error (missing c), cache)
  | some code =>
    let m := cache.metrics
    let metrics :=
      if cache.pinned.contains c.bytes then m
      else
        { m with
          elementsPinned := m.elementsPinned + 1
          sizePinned := m.sizePinned + code.size }
    (.ok (), { cache with pinned := cache.pinned.set c.bytes (), metrics })

/-- Takes a pin away, if there is one. -/
def unpin (cache : ModuleCache) (c : Checksum) : ModuleCache :=
  if cache.pinned.contains c.bytes then
    let m := cache.metrics
    let size := match cache.codes.get? c.bytes with
      | some code => code.size
      | none => 0
    { cache with
      pinned := cache.pinned.erase c.bytes
      metrics :=
        { m with
          elementsPinned := Word.sub m.elementsPinned 1
          sizePinned := Word.sub m.sizePinned size } }
  else cache

/-- What a saved module has and requires. -/
def analyze (cache : ModuleCache) (c : Checksum) : Except HostError Analysis :=
  match cache.codes.get? c.bytes with
  | some code => .ok (.ofCode code)
  | none => .error (missing c)

end ModuleCache

end ContractHost
