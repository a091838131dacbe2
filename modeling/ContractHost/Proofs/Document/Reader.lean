import ContractHost.Document.Reader
import ContractHost.Proofs.Document.Json
import ContractHost.Proofs.Text.Base64

/-!
# Values Read Back

What a type writes its reader reads back, as long as the reader may enter the levels that the
value takes. For single values these are none, and a list or a record takes one more than what
is in it. A record is written with all its members in their order, so the reader finds each of
them where it was put.

A reader takes documents in other forms as well: members in another order, or a list of them.
Wherever they stand, a member of a document that has been accepted is there once or not at all,
and what the reader has found is what is there.

## Main definitions

* `Reader.ReadsBack`: A value is read back wherever so many levels may be entered.
* `Node.held`: What a document holds for a member.

## Theorems

* `Node.Within.mono`: A tree that fits into some levels fits into more.
* `Reader.readsBack_word`, `Reader.readsBack_base64` and so on: Single values.
* `Reader.readsBack_listOf`: Lists.
* `Reader.fields_object`, `Reader.readsBack_object`: Records.
* `Reader.held_eq`: What a document holds is what a reader finds.
-/

namespace ContractHost

/-! ## Levels -/

namespace Node

/-- Single values take no level. -/
theorem within_null (d : Nat) : Node.null.Within d := by
  rw [Within]
  trivial

theorem within_bool (b : Bool) (d : Nat) : (Node.bool b).Within d := by
  rw [Within]
  trivial

theorem within_integer (n : Int) (d : Nat) : (Node.integer n).Within d := by
  rw [Within]
  trivial

theorem within_text (s : String) (d : Nat) : (Node.text s).Within d := by
  rw [Within]
  trivial

/-- A list takes one level more than its items. -/
theorem within_list {items : List Node} {d : Nat} (h : ∀ n ∈ items, n.Within d) :
    (Node.list items).Within (d + 1) := h

/-- A record takes one level more than its members. -/
theorem within_object {members : List (String × Node)} {d : Nat}
    (h : ∀ m ∈ members, m.2.Within d) : (object members).Within (d + 1) := by
  intro m hm
  rcases List.mem_map.mp hm with ⟨m', hm', rfl⟩
  exact ⟨rfl, h m' hm'⟩

/-- What fits into some levels fits into more. -/
theorem Within.mono {n : Node} {d d' : Nat} (h : n.Within d) (hd : d ≤ d') : n.Within d' := by
  -- The induction is on the tree, with the levels that it takes. Single values take none, and the
  -- other cases have none left or no name for a member.
  induction d, n using Within.induct generalizing d' with
  | case1 => exact within_null d'
  | case2 => exact within_bool _ d'
  | case3 => exact within_integer _ d'
  | case4 => exact within_text _ d'
  | case5 d items ih =>
      cases d' with
      | zero => omega
      | succ d' => exact fun n hn => ih n (h n hn) (by omega)
  | case6 d members ih =>
      cases d' with
      | zero => omega
      | succ d' => exact fun m hm => ⟨(h m hm).1, ih m (h m hm).2 (by omega)⟩
  | case7 => exact h.elim
  | case8 => exact h.elim
  | case9 => exact absurd h (by rw [Within]; exact not_false)
  | case10 => exact absurd h (by rw [Within]; exact not_false)

end Node

namespace Reader

/-- The value is read back from its document wherever so many levels may be entered, and the
    document takes no more of them. -/
def ReadsBack {α : Type} (r : Reader α) (toNode : α → Node) (levels : Nat) (x : α) : Prop :=
  ∀ d, levels ≤ d → r d (toNode x) = some x ∧ (toNode x).Within d

/-- What is read back with some levels is read back with more. -/
theorem ReadsBack.mono {α : Type} {r : Reader α} {toNode : α → Node} {levels levels' : Nat}
    {x : α} (h : ReadsBack r toNode levels x) (hle : levels ≤ levels') :
    ReadsBack r toNode levels' x := fun d hd => h d (Nat.le_trans hle hd)

/-- A value that takes a level is read back if it is wherever one is left. -/
theorem readsBack_of_succ {α : Type} {r : Reader α} {toNode : α → Node} {levels : Nat} {x : α}
    (h : ∀ d, levels ≤ d → r (d + 1) (toNode x) = some x ∧ (toNode x).Within (d + 1)) :
    ReadsBack r toNode (levels + 1) x := by
  intro d hd
  cases d with
  | zero => omega
  | succ d => exact h d (by omega)

/-! ## Single values -/

theorem readsBack_text (s : String) : ReadsBack text .text 0 s :=
  fun d _ => ⟨rfl, Node.within_text s d⟩

theorem natBelow_of_lt {bound n : Nat} (h : n < bound) (d : Nat) :
    natBelow bound d (.integer n) = some n := if_pos h

theorem readsBack_word (w : UInt64) : ReadsBack word .word 0 w := by
  intro d _
  refine ⟨?_, Node.within_integer _ d⟩
  rw [word, Node.word, natBelow_of_lt w.toNat_lt]
  exact congrArg some UInt64.ofNat_toNat

theorem readsBack_word32 (w : UInt32) : ReadsBack word32 (fun w => .integer w.toNat) 0 w := by
  intro d _
  refine ⟨?_, Node.within_integer _ d⟩
  rw [word32, natBelow_of_lt w.toNat_lt]
  exact congrArg some UInt32.ofNat_toNat

theorem readsBack_byte (b : UInt8) : ReadsBack byte (fun b => .integer b.toNat) 0 b := by
  intro d _
  refine ⟨?_, Node.within_integer _ d⟩
  rw [byte, natBelow_of_lt b.toNat_lt]
  exact congrArg some UInt8.ofNat_toNat

/-- Bytes are read back from their text in base64. -/
theorem readsBack_base64 (b : Bytes) :
    ReadsBack base64 (fun b => .text (Base64.encode b)) 0 b :=
  fun d _ => ⟨Base64.decode?_encode b, Node.within_text _ d⟩

/-! ## Values in other values -/

section Combined

variable {α : Type} {r : Reader α} {toNode : α → Node} {levels : Nat}

/-- An optional value, if it is not written as null. -/
theorem readsBack_optionOf {o : Option α} (h : ∀ x ∈ o, ReadsBack r toNode levels x)
    (hnull : ∀ x, toNode x ≠ .null) :
    ReadsBack (optionOf r) (fun o => .optional (o.map toNode)) levels o := by
  intro d hd
  cases o with
  | none => exact ⟨rfl, Node.within_null d⟩
  | some x =>
      rcases h x rfl d hd with ⟨hread, hwithin⟩
      refine ⟨?_, hwithin⟩
      -- The reader of options looks for a null first, and what is written here is none.
      change optionOf r d (toNode x) = _
      rw [optionOf]
      · rw [hread]
        rfl
      · exact hnull x

/-- Values that are read back one by one are read back in a row. -/
theorem mapM_map {β : Type} {f : β → Option α} {g : α → β} {xs : List α}
    (h : ∀ x ∈ xs, f (g x) = some x) : (xs.map g).mapM f = some xs := by
  induction xs with
  | nil => rfl
  | cons x xs ih =>
      rw [List.map_cons, List.mapM_cons, h x List.mem_cons_self,
        ih fun y hy => h y (List.mem_cons_of_mem x hy)]
      rfl

/-- Values that are read as they are one by one are read so in a row. -/
theorem mapM_self {f : α → Option α} {xs : List α} (h : ∀ x ∈ xs, f x = some x) :
    xs.mapM f = some xs := by
  have hmap := mapM_map (g := id) h
  rwa [List.map_id] at hmap

/-- A list is read back if its items are, wherever a level is left for them. -/
theorem readsBack_listOf {xs : List α} (h : ∀ x ∈ xs, ReadsBack r toNode levels x) :
    ReadsBack (listOf r) (fun xs => .list (xs.map toNode)) (levels + 1) xs := by
  apply readsBack_of_succ
  intro d hd
  refine ⟨mapM_map fun x hx => (h x hx d hd).1, Node.within_list ?_⟩
  intro n hn
  rcases List.mem_map.mp hn with ⟨x, hx, rfl⟩
  exact (h x hx d hd).2

end Combined

/-! ## Records -/

/-- Members with different names, all of them known, are found as they are written. -/
theorem known?_object {names : List String} {members : List (String × Node)}
    (hnodup : (members.map (·.1)).Nodup) (hnames : ∀ m ∈ members, m.1 ∈ names) :
    Fields.known? names (members.map fun m => (some m.1, m.2)) = some members := by
  induction members with
  | nil => rfl
  | cons m members ih =>
      rcases List.nodup_cons.mp hnodup with ⟨hm, hnodup'⟩
      -- The name does not come again among the other members.
      have hnew : ¬ (members.lookup m.1).isSome = true := by
        intro hsome
        rcases List.lookup_isSome_iff.mp hsome with ⟨m', hm', heq⟩
        exact hm (List.mem_map.mpr ⟨m', hm', (eq_of_beq heq).symm⟩)
      have hothers := ih hnodup' fun m' hm' => hnames m' (List.mem_cons_of_mem m hm')
      rw [List.map_cons, Fields.known?_cons_of_some hothers, if_pos (hnames m List.mem_cons_self),
        if_neg hnew]

/-- The members of a record that is written with all of them in their order. -/
theorem fields_object {names : List String} {members : List (String × Node)}
    (hnames : members.map (·.1) = names) (hnodup : names.Nodup) (d : Nat) :
    fields names (d + 1) (.object members) = some ⟨d, members⟩ := by
  have hknown : Fields.known? names (members.map fun m => (some m.1, m.2)) = some members := by
    apply known?_object
    · rw [hnames]
      exact hnodup
    · intro m hm
      rw [← hnames]
      exact List.mem_map_of_mem hm
  -- All members are known, so the reader finds them in the order in which they are written.
  rw [fields, Node.object, fieldsIn, hknown]
  rfl

/-- A record type is read back if its members are, wherever a level is left for them. -/
theorem readsBack_object {α : Type} {names : List String} {members : List (String × Node)} {d : Nat}
    {next : Fields → Option α} {x : α} (hnames : members.map (·.1) = names) (hnodup : names.Nodup)
    (hread : next ⟨d, members⟩ = some x) (hwithin : ∀ m ∈ members, m.2.Within d) :
    (fields names (d + 1) (.object members)).bind next = some x ∧
      (Node.object members).Within (d + 1) := by
  refine ⟨?_, Node.within_object hwithin⟩
  rw [fields_object hnames hnodup, Option.bind_some]
  exact hread

/-! ## What is there and what is found -/

end Reader

/-- What a document of a record type holds for a member: in a record, whatever stands behind its
    name, and in a list, what stands in its place. -/
def Node.held (names : List String) (name : String) : Node → List Node
  | .record members => (members.filter fun m => m.1 = some name).map (·.2)
  | .list items => ((names.zip items).filter fun m => m.1 = name).map (·.2)
  | _ => []

namespace Reader

/-- Of a list in which no name comes twice a look-up finds all there is. -/
theorem filter_eq_lookup {members : List (String × Node)} (h : (members.map (·.1)).Nodup)
    (name : String) :
    (members.filter fun m => m.1 = name).map (·.2) = (members.lookup name).toList := by
  induction members with
  | nil => rfl
  | cons m members ih =>
      rcases m with ⟨label, n⟩
      rcases List.nodup_cons.mp h with ⟨hlabel, hnodup⟩
      by_cases heq : label = name
      · -- The name has been met, and it does not come again.
        have hnone : members.lookup name = none := by
          rw [List.lookup_eq_none_iff]
          intro m hm
          rw [bne_iff_ne, ← heq]
          intro hm'
          exact hlabel (List.mem_map.mpr ⟨m, hm, hm'.symm⟩)
        rw [List.filter_cons_of_pos (by simpa using heq), List.map_cons, ih hnodup, hnone,
          List.lookup_cons, heq, beq_self_eq_true]
        rfl
      · rw [List.filter_cons_of_neg (by simpa using heq), ih hnodup, List.lookup_cons,
          beq_eq_false_iff_ne.mpr (Ne.symm heq)]

/-- Whatever members are known in a record, they are all that it holds. -/
theorem known?_held {names : List String} {members : List (Option String × Node)}
    {found : List (String × Node)} (h : Fields.known? names members = some found) {name : String}
    (hname : name ∈ names) :
    (members.filter fun m => m.1 = some name).map (·.2) = (found.lookup name).toList := by
  induction members generalizing found with
  | nil =>
      cases h
      rfl
  | cons m members ih =>
      rcases m with ⟨label, n⟩
      cases label with
      | none => cases h
      | some label =>
          simp only [Fields.known?, Option.bind_eq_bind, Option.bind_eq_some_iff] at h
          rcases h with ⟨others, hothers, h⟩
          have hrest := ih hothers
          -- A known name that comes a second time is turned away, so what is found first is all.
          by_cases heq : label = name
          · rw [heq, if_pos hname] at h
            cases hlookup : others.lookup name with
            | some n' =>
                rw [hlookup] at h
                cases h
            | none =>
                rw [hlookup] at h
                cases h
                rw [List.filter_cons_of_pos (by simpa using heq), List.map_cons, hrest, hlookup,
                  List.lookup_cons, beq_self_eq_true]
                rfl
          · rw [List.filter_cons_of_neg (by simpa using heq), hrest]
            split at h
            · split at h
              · cases h
              · cases h
                rw [List.lookup_cons, beq_eq_false_iff_ne.mpr (Ne.symm heq)]
            · cases h
              rfl

theorem zip_fst_sublist (names : List String) (items : List Node) :
    ((names.zip items).map (·.1)).Sublist names := by
  induction names generalizing items with
  | nil => exact .slnil
  | cons name names ih =>
      cases items with
      | nil => exact List.nil_sublist _
      | cons item items => exact (ih items).cons_cons name

/-- The members of a record type are found in a list or in a record, a level below it. -/
theorem fields_cases {names : List String} {d : Nat} {n : Node} {f : Fields}
    (h : fields names d n = some f) :
    d = f.depth + 1 ∧
      ((∃ items, n = .list items ∧ f.found = names.zip items) ∨
        ∃ members, n = .record members ∧ Fields.known? names members = some f.found) := by
  cases d with
  | zero => cases n <;> cases h
  | succ d =>
      cases n with
      | list items =>
          rw [fields, fieldsIn] at h
          split at h
          · cases h
            exact ⟨rfl, .inl ⟨items, rfl, rfl⟩⟩
          · cases h
      | record members =>
          simp only [fields, fieldsIn, Option.map_eq_some_iff] at h
          rcases h with ⟨found, hknown, rfl⟩
          exact ⟨rfl, .inr ⟨members, rfl, hknown⟩⟩
      | _ => cases h

/-- What a document holds for a member is what a reader of its type finds. -/
theorem held_eq {names : List String} {d : Nat} {n : Node} {f : Fields}
    (h : fields names d n = some f) (hnodup : names.Nodup) (name : String) (hname : name ∈ names) :
    n.held names name = (f.found.lookup name).toList := by
  rcases (fields_cases h).2 with ⟨items, rfl, hfound⟩ | ⟨members, rfl, hknown⟩
  · rw [hfound]
    exact filter_eq_lookup ((zip_fst_sublist names items).nodup hnodup) name
  · exact known?_held hknown hname

/-- Each value of a list has been read from an item of its document. -/
theorem mem_of_mapM {α : Type} {read : Node → Option α} {items : List Node} {xs : List α}
    (h : items.mapM read = some xs) : ∀ x ∈ xs, ∃ n ∈ items, read n = some x := by
  induction items generalizing xs with
  | nil =>
      cases h
      exact fun x hx => absurd hx List.not_mem_nil
  | cons n items ih =>
      simp only [List.mapM_cons, Option.bind_eq_bind, Option.bind_eq_some_iff] at h
      rcases h with ⟨y, hy, ys, hys, h⟩
      cases h
      intro x hx
      rcases List.mem_cons.mp hx with rfl | hx
      · exact ⟨n, List.mem_cons_self, hy⟩
      · rcases ih hys x hx with ⟨n', hn', hread⟩
        exact ⟨n', List.mem_cons_of_mem n hn', hread⟩

/-- An alternative is a record with its name alone, and takes a level. -/
theorem eq_of_choice {d d' : Nat} {n content : Node} {name : String}
    (h : choice d n = some (name, content, d')) :
    d = d' + 1 ∧ n = .record [(some name, content)] := by
  unfold choice at h
  split at h
  · cases h
    exact ⟨rfl, rfl⟩
  · cases h

end Reader

end ContractHost
