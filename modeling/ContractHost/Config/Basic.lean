import ContractHost.Config.Capability
import ContractHost.Config.LogLevel
import ContractHost.Gas.Prices

/-!
# Configuration

How a host is set up: its prices, the options of the module cache, what it logs and
how deep calls may nest. Every member of a document may be left out and then has its
default; three members have to make sense together with what the host does.

## Main definitions

* `Config`, `CacheOptions`, `LogOptions`: The configuration and two of its parts.
* `Config.standard`: The defaults.
* `Config.reader`: Reads a configuration from a document.
* `Config.problem?`: What is wrong with a configuration.
* `ConfigError`: Why there is no configuration.
* `Config.check`: A configuration without problems.
-/

namespace ContractHost

/-- Options of the module cache. -/
structure CacheOptions where
  baseDir : String
  capabilities : List String
  memoryCacheMiB : UInt32
  instanceMemoryMiB : UInt32
deriving DecidableEq

namespace CacheOptions

/-- The default options. -/
def standard : CacheOptions where
  baseDir := "./wasm-cache"
  capabilities := capabilitiesOfCsv "iterator,staking"
  memoryCacheMiB := 200
  instanceMemoryMiB := 32

/-- Reads cache options. -/
def reader (format : Format) : Reader CacheOptions := fun depth n => do
  let f ← Reader.fieldsIn format
    ["base_dir", "capabilities", "memory_cache_size_mib", "instance_memory_limit_mib"] depth n
  some
    { baseDir := ← f.getD "base_dir" standard.baseDir Reader.text
      capabilities := ← f.getD "capabilities" standard.capabilities (Reader.listOf Reader.text)
      memoryCacheMiB := ← f.getD "memory_cache_size_mib" standard.memoryCacheMiB Reader.word32
      instanceMemoryMiB :=
        ← f.getD "instance_memory_limit_mib" standard.instanceMemoryMiB Reader.word32 }

end CacheOptions

/-- What is logged and how. -/
structure LogOptions where
  level : LogLevel
  json : Bool
deriving DecidableEq

namespace LogOptions

/-- The default options. -/
def standard : LogOptions := ⟨.info, false⟩

/-- Reads log options. -/
def reader (format : Format) : Reader LogOptions := fun depth n => do
  let f ← Reader.fieldsIn format ["level", "json"] depth n
  some
    { level := ← f.getD "level" standard.level (LogLevel.reader format)
      json := ← f.getD "json" standard.json Reader.bool }

/-- Log options as a document. -/
def toNode (o : LogOptions) : Node :=
  .object [("level", .text o.level.name), ("json", .bool o.json)]

end LogOptions

/-- The set-up of a host. -/
structure Config where
  gas : Prices
  cache : CacheOptions
  log : LogOptions
  maxCallDepth : UInt32
  printDebug : Bool

/-- Why there is no configuration. -/
inductive ConfigError
  /-- The file cannot be read, or is no text. -/
  | unreadable
  /-- The text is no document of a configuration. -/
  | malformed
  /-- A member makes no sense. -/
  | invalid (problem : String)

/-- The wording of an invalid member. -/
def ConfigError.invalidText (problem : String) : String := "config: invalid value: " ++ problem

namespace Config

/-- The defaults. -/
def standard : Config where
  gas := .standard
  cache := .standard
  log := .standard
  maxCallDepth := 10
  printDebug := false

/-- Reads a configuration. -/
def reader (format : Format) : Reader Config := fun depth n => do
  let f ← Reader.fieldsIn format ["gas", "cache", "log", "max_call_depth", "print_debug"] depth n
  some
    { gas := ← f.getD "gas" standard.gas (Prices.reader format)
      cache := ← f.getD "cache" standard.cache (CacheOptions.reader format)
      log := ← f.getD "log" standard.log (LogOptions.reader format)
      maxCallDepth := ← f.getD "max_call_depth" standard.maxCallDepth Reader.word32
      printDebug := ← f.getD "print_debug" standard.printDebug Reader.bool }

/-- The first member that makes no sense: a host multiplies prices by at least one,
    runs at least top-level calls, and keeps its cache somewhere. -/
def problem? (c : Config) : Option String :=
  if c.gas.multiplier = 0 then some "gas.gas_mul must be at least 1"
  else if c.maxCallDepth = 0 then some "max_call_depth must be at least 1"
  else if c.cache.baseDir = "" then some "cache.base_dir must not be empty"
  else none

/-- The configuration, if it has no problem. -/
def check (c : Config) : Except ConfigError Config :=
  match c.problem? with
  | some problem => .error (.invalid problem)
  | none => .ok c

end Config

end ContractHost
