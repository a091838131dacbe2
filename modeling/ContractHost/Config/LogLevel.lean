import ContractHost.Document.Reader

/-!
# Log Levels

The five levels of detail a host logs at. A command line names them in any case and
with one alias; a document names them exactly.

## Main definitions

* `LogLevel`: The levels.
* `LogLevel.name`: The name of a level.
* `LogLevel.parse?`: The level for a name as a user types it.
* `LogLevel.reader`: The level for a name in a document.
-/

namespace ContractHost

/-- A level of detail. -/
inductive LogLevel
  | error
  | warn
  | info
  | debug
  | trace
deriving DecidableEq

namespace LogLevel

/-- The name of a level. -/
def name : LogLevel → String
  | error => "error"
  | warn => "warn"
  | info => "info"
  | debug => "debug"
  | trace => "trace"

/-- The level of exactly this name. -/
def ofName? (s : String) : Option LogLevel :=
  if s = "error" then some error
  else if s = "warn" then some warn
  else if s = "info" then some info
  else if s = "debug" then some debug
  else if s = "trace" then some trace
  else none

/-- The level for a name as a user types it: in any case, and with `warning` for
    `warn`. Lower-casing the ASCII letters is enough, because no other character has a
    lower-case form that is a letter of one of the names. -/
def parse? (s : String) : Option LogLevel :=
  let lower := String.ofList (s.toList.map Char.toLower)
  if lower = "warning" then some warn else ofName? lower

/-- The complaint about a name that is no level. -/
def unknown (s : String) : String := "Unknown log level: " ++ s

/-- The level of a document: its name, or a record whose only member has that name
    and no content. -/
def reader (format : Format) : Reader LogLevel
  | _, .text s => ofName? s
  | depth, n => do
    let (name, content, _) ← Reader.choice depth n
    let level ← ofName? name
    if format.isUnit content then some level else none

end LogLevel

end ContractHost
