/-!
# Documents

A message, a response and a configuration file are all trees of the same kind of
node, whatever text they were read from. A tree keeps what a typed reader can tell
apart and nothing else: a number that is no integer is only known to be of another
kind, and a string that is no text is only known to be garbled, because a member
nobody reads may hold either.

## Main definitions

* `Node`: A tree.
* `Node.object`: A record whose labels are texts.
* `Node.strings`: A list of texts.
-/

namespace ContractHost

/-- A tree of null, truth values, integers, texts, lists and records. A label that
    is no text is `none`. -/
inductive Node
  | null
  | bool (b : Bool)
  | integer (n : Int)
  | text (s : String)
  | list (items : List Node)
  | record (members : List (Option String × Node))
  /-- A string that is no text. -/
  | garbled
  /-- A value of a kind that no member asks for, such as a fraction. -/
  | other

namespace Node

instance : Inhabited Node := ⟨.null⟩

/-- A record whose labels are texts. -/
def object (members : List (String × Node)) : Node :=
  .record (members.map fun m => (some m.1, m.2))

/-- A list of texts. -/
def strings (texts : List String) : Node := .list (texts.map .text)

/-- A word as an integer. -/
def word (w : UInt64) : Node := .integer w.toNat

/-- An optional node, absent as null. -/
def optional : Option Node → Node
  | none => .null
  | some n => n

end Node

end ContractHost
