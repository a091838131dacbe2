import ContractHost.Document.Node
import ContractHost.Text.Base64

/-!
# Typed Readers

A reader turns a tree into a value of a type, or refuses it. It may enter at most
`nestingLimit` lists and records on the way down; parts that nobody reads may be
nested as deeply as they like.

A record type is read from a record, in which unknown members are skipped and a
known one comes once, or from a list of its members in their order. A sum type is
read from a record with one member that names the alternative.

## Main definitions

* `Reader`: A function from the levels still allowed and a tree to a value.
* `Reader.text`, `Reader.bool`, `Reader.natBelow`, `Reader.word`, `Reader.word32`,
  `Reader.base64`: Readers of single values.
* `Reader.listOf`, `Reader.optionOf`: Readers of lists and of optional values.
* `Format`: In what the kinds of document differ.
* `Fields`, `Reader.fields`: The members of a record type.
* `Reader.choice`: The alternative of a sum type.

## Theorems

* `Fields.known?_cons_of_none`, `Fields.known?_cons_of_some`: Members are known one by one.
-/

namespace ContractHost

/-- How many lists and records a value may be nested in. -/
def nestingLimit : Nat := 127

/-- In what the kinds of document differ for a typed reader. -/
structure Format where
  /-- Whether a node is the content of an alternative that has none. -/
  isUnit : Node → Bool
  /-- Whether a list of members may go on after the last of them. -/
  allowsSurplus : Bool

/-- In JSON an alternative without content holds null, and lists fit exactly. -/
def Format.json : Format where
  isUnit
    | .null => true
    | _ => false
  allowsSurplus := false

/-- Reads a value from a tree, given how many levels it may still enter. -/
abbrev Reader (α : Type) := (depth : Nat) → Node → Option α

namespace Reader

/-- A text. -/
def text : Reader String
  | _, .text s => some s
  | _, _ => none

/-- A truth value. -/
def bool : Reader Bool
  | _, .bool b => some b
  | _, _ => none

/-- An integer from zero up to a bound. -/
def natBelow (bound : Nat) : Reader Nat
  | _, .integer (.ofNat n) => if n < bound then some n else none
  | _, _ => none

/-- A 64-bit word. -/
def word : Reader UInt64 := fun d n => (natBelow UInt64.size d n).map UInt64.ofNat

/-- A 32-bit word. -/
def word32 : Reader UInt32 := fun d n => (natBelow UInt32.size d n).map UInt32.ofNat

/-- A byte. -/
def byte : Reader UInt8 := fun d n => (natBelow UInt8.size d n).map UInt8.ofNat

/-- A byte string in Base64. -/
def base64 : Reader Bytes := fun d n => (text d n).bind Base64.decode?

/-- A list of values. -/
def listOf {α : Type} (item : Reader α) : Reader (List α)
  | d + 1, .list items => items.mapM (item d)
  | _, _ => none

/-- A value, or null for none. -/
def optionOf {α : Type} (content : Reader α) : Reader (Option α)
  | _, .null => some none
  | d, n => (content d n).map some

end Reader

/-- The members found for a record type. -/
structure Fields where
  /-- How many levels each member may still enter. -/
  depth : Nat
  /-- The members by name, each name at most once. -/
  found : List (String × Node)

namespace Fields

/-- The value of a member, if it is there. -/
def get? {α : Type} (f : Fields) (name : String) (content : Reader α) : Option α :=
  (f.found.lookup name).bind (content f.depth)

/-- The value of a member, or `default` if it is not there. -/
def getD {α : Type} (f : Fields) (name : String) (default : α) (content : Reader α) :
    Option α :=
  match f.found.lookup name with
  | none => some default
  | some n => content f.depth n

/-- The known members of a record, if every label is a text and no known one comes
    twice. -/
def known? (names : List String) : List (Option String × Node) → Option (List (String × Node))
  | [] => some []
  | (none, _) :: _ => none
  | (some name, content) :: rest => do
    let others ← known? names rest
    if name ∈ names then
      if (others.lookup name).isSome then none else some ((name, content) :: others)
    else some others

theorem known?_cons_of_none {names : List String} {rest : List (Option String × Node)}
    (h : known? names rest = none) (m : Option String × Node) :
    known? names (m :: rest) = none := by
  rcases m with ⟨_ | name, content⟩
  · rfl
  · rw [known?, h]
    rfl

theorem known?_cons_of_some {names : List String} {rest : List (Option String × Node)}
    {others : List (String × Node)} (h : known? names rest = some others) (name : String)
    (content : Node) :
    known? names ((some name, content) :: rest) =
      if name ∈ names then
        if (others.lookup name).isSome then none else some ((name, content) :: others)
      else some others := by
  rw [known?, h]
  rfl

end Fields

namespace Reader

/-- The members of a record type with the given names, in their order. -/
def fieldsIn (format : Format) (names : List String) : Reader Fields
  | d + 1, .list items =>
    if format.allowsSurplus ∨ items.length ≤ names.length then some ⟨d, names.zip items⟩
    else none
  | d + 1, .record members => (Fields.known? names members).map (⟨d, ·⟩)
  | _, _ => none

/-- The members of a record type in a JSON document. -/
def fields (names : List String) : Reader Fields := fieldsIn .json names

/-- The name and the content of an alternative, with the levels left for it. -/
def choice : Reader (String × Node × Nat)
  | d + 1, .record [(some name, content)] => some (name, content, d)
  | _, _ => none

end Reader

end ContractHost
