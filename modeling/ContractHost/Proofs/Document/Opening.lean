import ContractHost.Document.Reader
import Mathlib.Data.List.Nodup

/-!
# Documents with an Open Place

A reader of a record type takes the members of a document one by one, and what it makes of one
member has nothing to do with what another one holds. This file says so for a document in which
the place of one member is open. Whatever is put there, the reader finds just that under the name
of the member, and under every other name it finds the same as before, or the document is refused
whatever is put there.

The place of a member is behind its name in a record, and at its position in a list of members.
A name that comes twice in a record is refused before anybody looks at what stands behind it.

## Main definitions

* `Node.Opening`: A document in which a place is open.
* `Node.Opening.fill`: The document with something put there.
* `Node.Opening.Stands`: The place is the one of a certain member.

## Theorems

* `Fields.known?_fill`: An open place in a record.
* `Reader.fieldsIn_fill`: An open place in a document of a record type.
* `Fields.getD_open`, `Fields.getD_of_ne`: The values of members that are found in it.
-/

namespace ContractHost

/-- A document in which the place of a member is open. -/
inductive Node.Opening
  /-- It stands among the members of a record. -/
  | member (before after : List (Option String × Node))
  /-- It stands in a list of members. -/
  | item (before after : List Node)

namespace Node.Opening

/-- The document with a node put in the place, as the member of the name. -/
def fill (name : String) : Opening → Node → Node
  | member before after, n => .record (before ++ (some name, n) :: after)
  | item before after, n => .list (before ++ n :: after)

/-- The place is the one of a member of a record type. -/
def Stands (names : List String) (name : String) : Opening → Prop
  | member _ _ => name ∈ names
  | item before _ => names[before.length]? = some name

instance (names : List String) (name : String) : (o : Opening) → Decidable (o.Stands names name)
  | member _ _ => inferInstanceAs (Decidable (name ∈ names))
  | item before _ => inferInstanceAs (Decidable (names[before.length]? = some name))

end Node.Opening

namespace Fields

theorem lookup_open {name : String} {front back : List (String × Node)}
    (h : front.lookup name = none) (n : Node) :
    (front ++ (name, n) :: back).lookup name = some n := by
  rw [List.lookup_append, h, List.lookup_cons, beq_self_eq_true]
  rfl

theorem lookup_of_ne {name other : String} (h : other ≠ name) (front back : List (String × Node))
    (n : Node) :
    (front ++ (name, n) :: back).lookup other = (front ++ back).lookup other := by
  rw [List.lookup_append, List.lookup_append, List.lookup_cons, beq_eq_false_iff_ne.mpr h]

/-- A record is refused whatever stands behind one of its names, or it holds that and otherwise
    always the same. -/
theorem known?_fill {names : List String} {name : String} (hname : name ∈ names)
    (before after : List (Option String × Node)) :
    (∀ n, known? names (before ++ (some name, n) :: after) = none) ∨
      ∃ front back, front.lookup name = none ∧
        ∀ n, known? names (before ++ (some name, n) :: after) =
          some (front ++ (name, n) :: back) := by
  -- The record is read from its end, so the induction is on the members in front of the place.
  induction before with
  | nil =>
      cases hafter : known? names after with
      | none => exact Or.inl fun n => known?_cons_of_none hafter (some name, n)
      | some back =>
          -- The name may come again, and then the record is refused for that.
          by_cases hagain : (back.lookup name).isSome = true
          · refine Or.inl fun n => ?_
            rw [List.nil_append, known?_cons_of_some hafter, if_pos hname, if_pos hagain]
          · refine Or.inr ⟨[], back, rfl, fun n => ?_⟩
            rw [List.nil_append, known?_cons_of_some hafter, if_pos hname, if_neg hagain]
            rfl
  | cons m before ih =>
      rcases m with ⟨_ | label, content⟩
      · exact Or.inl fun n => rfl
      rcases ih with hrefused | ⟨front, back, hfront, hknown⟩
      · exact Or.inl fun n => known?_cons_of_none (hrefused n) (some label, content)
      have hcons := fun n => known?_cons_of_some (hknown n) label content
      by_cases hlabel : label ∈ names
      · by_cases heq : label = name
        · refine Or.inl fun n => ?_
          rw [List.cons_append, hcons, if_pos hlabel, heq, lookup_open hfront]
          rfl
        · by_cases hagain : ((front ++ back).lookup label).isSome = true
          · refine Or.inl fun n => ?_
            rw [List.cons_append, hcons, if_pos hlabel, lookup_of_ne heq, if_pos hagain]
          · refine Or.inr ⟨(label, content) :: front, back, ?_, fun n => ?_⟩
            · rw [List.lookup_cons, beq_eq_false_iff_ne.mpr (Ne.symm heq)]
              exact hfront
            · rw [List.cons_append, hcons, if_pos hlabel, lookup_of_ne heq, if_neg hagain]
              rfl
      · -- Nobody asks for a name that is not known.
        refine Or.inr ⟨front, back, hfront, fun n => ?_⟩
        rw [List.cons_append, hcons, if_neg hlabel]

/-- What stands in the place of a name in a list of members. -/
theorem zip_fill {names : List String} {name : String} (hnodup : names.Nodup)
    {before : List Node} (hplace : names[before.length]? = some name) (after : List Node) :
    ∃ front back, front.lookup name = none ∧
      ∀ n, names.zip (before ++ n :: after) = front ++ (name, n) :: back := by
  induction before generalizing names with
  | nil =>
      cases names with
      | nil => cases hplace
      | cons first names =>
          cases hplace
          exact ⟨[], names.zip after, rfl, fun n => rfl⟩
  | cons m before ih =>
      cases names with
      | nil => cases hplace
      | cons first names =>
          rcases List.nodup_cons.mp hnodup with ⟨hfirst, hrest⟩
          rw [List.length_cons, List.getElem?_cons_succ] at hplace
          rcases ih hrest hplace with ⟨front, back, hfront, hzip⟩
          -- The place is further on, and no name comes twice.
          have hne : name ≠ first := by
            rintro rfl
            exact hfirst (List.mem_of_getElem? hplace)
          refine ⟨(first, m) :: front, back, ?_, fun n => ?_⟩
          · rw [List.lookup_cons, beq_eq_false_iff_ne.mpr hne]
            exact hfront
          · rw [List.cons_append, List.zip_cons_cons, hzip]
            rfl

/-! ## Values of members -/

section Values

variable {α : Type} {name : String} {front : List (String × Node)}

/-- The value in the open place is the one of what has been put there. -/
theorem getD_open (h : front.lookup name = none) (d : Nat) (back : List (String × Node)) (n : Node)
    (default : α) (content : Reader α) :
    getD ⟨d, front ++ (name, n) :: back⟩ name default content = content d n := by
  rw [getD, lookup_open h]

/-- The value of any other member is the one that it has without the place. -/
theorem getD_of_ne {other : String} (h : other ≠ name) (d : Nat) (front back : List (String × Node))
    (n : Node) (default : α) (content : Reader α) :
    getD ⟨d, front ++ (name, n) :: back⟩ other default content =
      getD ⟨d, front ++ back⟩ other default content := by
  rw [getD, getD, lookup_of_ne h]

end Values

end Fields

/-- A document of a record type is refused whatever is put in the place of a member, or the reader
    finds that and otherwise always the same. -/
theorem Reader.fieldsIn_fill (format : Format) {names : List String} (hnodup : names.Nodup)
    {name : String} {o : Node.Opening} (ho : o.Stands names name) (d : Nat) :
    (∀ n, fieldsIn format names d (o.fill name n) = none) ∨
      ∃ d' front back, front.lookup name = none ∧
        ∀ n, fieldsIn format names d (o.fill name n) = some ⟨d', front ++ (name, n) :: back⟩ := by
  cases d with
  | zero =>
      cases o with
      | member before after => exact Or.inl fun n => rfl
      | item before after => exact Or.inl fun n => rfl
  | succ d =>
      cases o with
      | member before after =>
          rcases Fields.known?_fill ho before after with hrefused | ⟨front, back, hfront, hknown⟩
          · refine Or.inl fun n => ?_
            rw [Node.Opening.fill, fieldsIn, hrefused]
            rfl
          · refine Or.inr ⟨d, front, back, hfront, fun n => ?_⟩
            rw [Node.Opening.fill, fieldsIn, hknown]
            rfl
      | item before after =>
          rcases Fields.zip_fill hnodup ho after with ⟨front, back, hfront, hzip⟩
          -- Whether a list is too long does not depend on what stands in it.
          by_cases hlong : format.allowsSurplus = true ∨
              before.length + (after.length + 1) ≤ names.length
          · refine Or.inr ⟨d, front, back, hfront, fun n => ?_⟩
            rw [Node.Opening.fill, fieldsIn, hzip, if_pos]
            rwa [List.length_append, List.length_cons]
          · refine Or.inl fun n => ?_
            rw [Node.Opening.fill, fieldsIn, if_neg]
            rwa [List.length_append, List.length_cons]

end ContractHost
