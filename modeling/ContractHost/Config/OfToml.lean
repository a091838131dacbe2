import ContractHost.Config.Basic
import ContractHost.Text.Utf8
import ContractHost.Toml.Document

/-!
# Configurations in TOML

A configuration file is a text in TOML. Its configuration is checked before anything
is built from it.

## Main definitions

* `Format.toml`: How a TOML document differs from a JSON one for typed readers.
* `LogOptions.ofToml?`: A part of a configuration.
* `Config.ofToml`: The configuration of a text.
* `Config.ofFile`: The configuration of a file.
-/

namespace ContractHost

/-- In TOML an alternative without content holds an empty array or table, and an array
    of members may go on after the last of them. -/
def Format.toml : Format where
  isUnit
    | .list [] => true
    | .record [] => true
    | _ => false
  allowsSurplus := true

/-- The log options of a text. -/
def LogOptions.ofToml? (s : String) : Option LogOptions :=
  (Toml.read? s).bind (reader .toml nestingLimit)

namespace Config

/-- The configuration of a text. -/
def ofToml (s : String) : Except ConfigError Config :=
  match (Toml.read? s).bind (reader .toml nestingLimit) with
  | none => .error .malformed
  | some c => c.check

/-- The configuration of a file, given what the file holds if it can be read. -/
def ofFile (content : Option Bytes) : Except ConfigError Config :=
  match content.bind Utf8.decode? with
  | none => .error .unreadable
  | some s => ofToml s

end Config

end ContractHost
