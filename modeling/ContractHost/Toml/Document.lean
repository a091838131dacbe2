import ContractHost.Toml.Scalar

/-!
# TOML Documents

A document is read line by line into open tables. A table knows whether a header has
named it or whether it only came about as the parent of another, and whether that
parent was named by a dotted key: a header may name a table once, a dotted key may
only go on in tables that dotted keys began, and values are closed for good.

## Main definitions

* `Toml.Entry`, `Toml.Members`: What a table holds while the document is read.
* `Toml.Members.within?`: Changes the table at the end of a path.
* `Toml.Members.assign?`: Gives a value to a dotted key.
* `Toml.Members.open?`, `Toml.Members.append?`: What the two kinds of header do.
* `Toml.value?`: A value of any kind.
* `Toml.read?`: Reads a whole document.
-/

namespace ContractHost

namespace Toml

/-! ## Open tables -/

/-- What a table holds under a key while the document is read. -/
inductive Entry
  /-- A value, to which nothing can be added. -/
  | closed (n : Node)
  /-- A table, with whether it came about only as a parent, and whether a dotted key
      named it. -/
  | table (implicit dotted : Bool) (members : List (String × Entry))
  /-- An array of tables in the order of their headers. -/
  | tables (elements : List (List (String × Entry)))

/-- The members of a table, in the order of their keys' first mention. -/
abbrev Members := List (String × Entry)

mutual

/-- An entry as a node. -/
def Entry.toNode : Entry → Node
  | .closed n => n
  | .table _ _ members => .record (memberNodes members)
  | .tables elements => .list (elementNodes elements)

/-- The members of a table as those of a record. -/
def memberNodes : List (String × Entry) → List (Option String × Node)
  | [] => []
  | (key, e) :: rest => (some key, e.toNode) :: memberNodes rest

/-- The elements of an array of tables as records. -/
def elementNodes : List (List (String × Entry)) → List Node
  | [] => []
  | members :: rest => .record (memberNodes members) :: elementNodes rest

end

namespace Members

/-- The members with `key` standing for `e`. -/
def put (key : String) (e : Entry) : Members → Members
  | [] => [(key, e)]
  | (k, old) :: rest => if k = key then (k, e) :: rest else (k, old) :: put key e rest

/-- Changes the table at the end of a path, which starts in a table that a dotted
    key named or not. Missing tables on the way come about; an array of tables stands
    for its last element; a path of dotted keys enters no table that a header named. -/
def within? (byDots : Bool) : (path : List String) → (dotted : Bool) →
    (change : Bool → Members → Option Members) → Members → Option Members
  | [], dotted, change, members => change dotted members
  | key :: path, _, change, members =>
    match members.lookup key with
    | none => do
      let inner ← within? byDots path byDots change []
      some (put key (.table true byDots inner) members)
    | some (.closed _) => none
    | some (.tables elements) => do
      let inner ← within? byDots path false change (elements.getLastD [])
      some (put key (.tables (elements.dropLast ++ [inner])) members)
    | some (.table implicit dotted inner) =>
      if byDots ∧ !implicit then none
      else do
        let inner ← within? byDots path dotted change inner
        some (put key (.table implicit dotted inner) members)

/-- Gives a value to a new key in a table. A key with points has to end in a table
    that dotted keys named, and a plain key in one that they did not. -/
def assign? (path : List String) (n : Node) (members : Members) : Option Members :=
  match path.getLast? with
  | none => none
  | some key =>
    let parents := path.dropLast
    within? true parents false
      (fun dotted members =>
        if dotted = parents.isEmpty ∨ (members.lookup key).isSome then none
        else some (put key (.closed n) members))
      members

/-- Names the table of a header. Only a parent of other headers may be named later
    than they are. -/
def open? (path : List String) (members : Members) : Option Members :=
  match path.getLast? with
  | none => none
  | some key =>
    within? false path.dropLast false
      (fun _ members =>
        match members.lookup key with
        | none => some (put key (.table false false []) members)
        | some (.table true false inner) => some (put key (.table false false inner) members)
        | _ => none)
      members

/-- Adds an element to the array of tables of a header. -/
def append? (path : List String) (members : Members) : Option Members :=
  match path.getLast? with
  | none => none
  | some key =>
    within? false path.dropLast false
      (fun _ members =>
        match members.lookup key with
        | none => some (put key (.tables [[]]) members)
        | some (.tables elements) => some (put key (.tables (elements ++ [[]])) members)
        | _ => none)
      members

/-- Gives a value to a dotted key in the table of the last header. -/
def assignUnder? (header path : List String) (n : Node) (members : Members) :
    Option Members :=
  within? false header false (fun _ inner => assign? path n inner) members

end Members

/-! ## Values -/

/-- The items of an array from behind its bracket or a comma, the last comma being
    optional. -/
def items? (item : List Char → Option (Node × List Char)) :
    (fuel : Nat) → List Char → Option (List Node × List Char)
  | 0, _ => none
  | fuel + 1, cs =>
    match gap false cs with
    | ']' :: rest => some ([], rest)
    | cs => do
      let (n, rest) ← item cs
      match gap false rest with
      | ',' :: rest => do
        let (ns, rest) ← items? item fuel rest
        some (n :: ns, rest)
      | ']' :: rest => some ([n], rest)
      | _ => none

/-- The pairs of an inline table from behind its brace or a comma, added to those
    before. -/
def pairs? (item : List Char → Option (Node × List Char)) :
    (fuel : Nat) → Members → List Char → Option (Members × List Char)
  | 0, _, _ => none
  | fuel + 1, members, cs => do
    let (path, rest) ← key? cs
    let (n, rest) ← item (skipBlanks (← expect? '=' rest))
    let members ← members.assign? path n
    match skipBlanks rest with
    | ',' :: rest => pairs? item fuel members rest
    | '\x7d' :: rest => some (members, rest)
    | _ => none

/-- A value of any kind, with at most `depth` levels of arrays and inline tables. -/
def value? : (depth : Nat) → List Char → Option (Node × List Char)
  | depth, '[' :: rest =>
    match depth with
    | 0 => none
    | depth + 1 => do
      let (ns, rest) ← items? (value? depth) (rest.length + 1) rest
      some (.list ns, rest)
  | depth, '\x7b' :: rest =>
    match depth with
    | 0 => none
    | depth + 1 =>
      match skipBlanks rest with
      | '\x7d' :: rest => some (.record [], rest)
      | _ => do
        let (members, rest) ← pairs? (value? depth) (rest.length + 1) [] rest
        some (.record (memberNodes members), rest)
  | _, cs@('"' :: _) => (string? cs).map fun (s, rest) => (.text (String.ofList s), rest)
  | _, cs@('\'' :: _) => (string? cs).map fun (s, rest) => (.text (String.ofList s), rest)
  | _, cs => scalar? cs

/-! ## Lines -/

/-- Reads the lines of a document into its root table, under the path of the last
    header. -/
def lines? : (fuel : Nat) → (header : List String) → Members → List Char → Option Members
  | 0, _, _, _ => none
  | fuel + 1, header, root, cs =>
    match skipBlanks cs with
    | [] => some root
    | '#' :: rest => do lines? fuel header root (← newline? (skipComment ('#' :: rest)))
    | '\n' :: rest => lines? fuel header root rest
    | '\r' :: rest => do lines? fuel header root (← newline? ('\r' :: rest))
    | '[' :: '[' :: rest => do
      let (path, rest) ← key? rest
      let rest ← lineEnd? (← expect? ']' (← expect? ']' rest))
      lines? fuel path (← root.append? path) rest
    | '[' :: rest => do
      let (path, rest) ← key? rest
      let rest ← lineEnd? (← expect? ']' rest)
      lines? fuel path (← root.open? path) rest
    | cs => do
      let (path, rest) ← key? cs
      let (n, rest) ← value? nestingLimit (skipBlanks (← expect? '=' rest))
      let rest ← lineEnd? rest
      lines? fuel header (← root.assignUnder? header path n) rest

/-- Reads a whole document, which may begin with a byte order mark. -/
def read? (s : String) : Option Node := do
  let cs := match s.toList with
    | '\uFEFF' :: rest => rest
    | cs => cs
  let root ← lines? (cs.length + 1) [] [] cs
  some (.record (memberNodes root))

end Toml

end ContractHost
