import ContractHost.Config.Capability
import ContractHost.Proofs.Text.Blank

/-!
# Lists of Names in One Text

A text with commas stands for a list of names, and so does a list of names for a text, the one
with commas between them. The way from a list to a text and back is no detour, while the way from
a text to a list and back loses blanks, and commas that nothing stands between.

Three facts settle what is read from any text. A comma between two texts separates the names of the
one from the names of the other, wherever it stands. So a text is read stretch by stretch, and a
stretch without commas is either nothing but blanks, from which nothing is read, or a name with
blanks around it, from which the name is read.

## Main definitions

* `IsCapabilityName`: A text that can be the name of a capability.

## Theorems

* `capabilitiesOfCsv_append`: A comma between two lists.
* `capabilitiesOfCsv_padded`, `capabilitiesOfCsv_blanks`: A single name, and none.
* `capabilitiesOfCsv_intercalate`: Names with commas between them are read back.
* `capabilities_separated`: All of it.
-/

namespace ContractHost

/-- A text that can be the name of a capability: there is something in it, but no comma, and
    it neither starts nor ends with a blank. -/
structure IsCapabilityName (name : String) : Prop where
  ne_empty : name ≠ ""
  no_comma : ',' ∉ name.toList
  bare : Text.Bare name.toList

/-- A comma between two lists separates their names. -/
theorem capabilitiesOfCsv_append (s t : String) :
    capabilitiesOfCsv (s ++ "," ++ t) = capabilitiesOfCsv s ++ capabilitiesOfCsv t := by
  have hcomma : (s ++ "," ++ t).toList = s.toList ++ ',' :: t.toList := by
    rw [String.toList_append, String.toList_append, List.append_assoc]
    rfl
  unfold capabilitiesOfCsv
  rw [hcomma, Text.splitOn_append, List.map_append, List.filter_append, List.map_append]

/-- A stretch without commas is read as what is left of it without blanks, if anything is. -/
theorem capabilitiesOfCsv_of_no_comma {s : String} (h : ',' ∉ s.toList) :
    capabilitiesOfCsv s =
      ([Text.trim s.toList].filter (!·.isEmpty)).map String.ofList := by
  unfold capabilitiesOfCsv
  rw [Text.splitOn_eq_singleton h]
  rfl

theorem Text.Blanks.no_comma {cs : List Char} (h : Blanks cs) : ',' ∉ cs :=
  fun hmem => absurd (h ',' hmem) (by decide)

theorem capabilitiesOfCsv_blanks {s : String} (h : Text.Blanks s.toList) :
    capabilitiesOfCsv s = [] := by
  rw [capabilitiesOfCsv_of_no_comma h.no_comma, Text.trim_blanks h]
  rfl

/-- Blanks around a name do not belong to it. -/
theorem capabilitiesOfCsv_padded {left name right : String} (hleft : Text.Blanks left.toList)
    (hright : Text.Blanks right.toList) (hname : IsCapabilityName name) :
    capabilitiesOfCsv (left ++ name ++ right) = [name] := by
  have htext : (left ++ name ++ right).toList = left.toList ++ name.toList ++ right.toList := by
    rw [String.toList_append, String.toList_append]
  have hcomma : ',' ∉ (left ++ name ++ right).toList := by
    rw [htext, List.mem_append, List.mem_append, not_or, not_or]
    exact ⟨⟨hleft.no_comma, hname.no_comma⟩, hright.no_comma⟩
  have hne : (!name.toList.isEmpty) = true := by
    rw [Bool.not_eq_true', List.isEmpty_eq_false_iff]
    exact fun h => hname.ne_empty (String.toList_eq_nil_iff.mp h)
  rw [capabilitiesOfCsv_of_no_comma hcomma, htext, Text.trim_padded hleft hright hname.bare,
    List.filter_singleton, hne]
  exact congrArg (· :: []) String.ofList_toList

theorem isCapabilityName_of_mem {s name : String} (h : name ∈ capabilitiesOfCsv s) :
    IsCapabilityName name := by
  unfold capabilitiesOfCsv at h
  rcases List.mem_map.mp h with ⟨cs, hcs, rfl⟩
  rcases List.mem_filter.mp hcs with ⟨hcs, hne⟩
  rcases List.mem_map.mp hcs with ⟨part, hpart, rfl⟩
  refine ⟨fun hempty => ?_, ?_, ?_⟩
  · rw [Bool.not_eq_true', List.isEmpty_eq_false_iff] at hne
    exact hne (String.ofList_eq_empty_iff.mp hempty)
  · rw [String.toList_ofList]
    exact fun hcomma =>
      Text.not_mem_of_mem_splitOn hpart ((Text.trim_sublist part).subset hcomma)
  · rw [String.toList_ofList]
    exact Text.bare_trim part

/-- Names with commas between them are read back. -/
theorem capabilitiesOfCsv_intercalate {names : List String}
    (h : ∀ name ∈ names, IsCapabilityName name) :
    capabilitiesOfCsv (",".intercalate names) = names := by
  induction names with
  | nil => rfl
  | cons name names ih =>
      rw [List.forall_mem_cons] at h
      -- A name alone is one with no blanks around it.
      have hname : capabilitiesOfCsv name = [name] := by
        have hpadded := @capabilitiesOfCsv_padded "" name "" nofun nofun h.1
        rwa [String.append_empty, String.empty_append] at hpadded
      cases names with
      | nil => rw [String.intercalate_singleton, hname]
      | cons name' names =>
          rw [String.intercalate_cons_cons, capabilitiesOfCsv_append, hname, ih h.2]
          rfl

/-- A text of two lists with a comma between them is read as the names of the one and then those
    of the other. All that is read are names, and written down with commas between them these are
    read again. A name with blanks around it is read as this name, and blanks alone as none. -/
theorem capabilities_separated (s t : String) :
    capabilitiesOfCsv (s ++ "," ++ t) = capabilitiesOfCsv s ++ capabilitiesOfCsv t ∧
      (∀ name ∈ capabilitiesOfCsv s, IsCapabilityName name) ∧
      capabilitiesOfCsv (",".intercalate (capabilitiesOfCsv s)) = capabilitiesOfCsv s ∧
      (∀ left name right : String, Text.Blanks left.toList → Text.Blanks right.toList →
        IsCapabilityName name → capabilitiesOfCsv (left ++ name ++ right) = [name]) ∧
      ∀ blanks : String, Text.Blanks blanks.toList → capabilitiesOfCsv blanks = [] := by
  have hnames : ∀ name ∈ capabilitiesOfCsv s, IsCapabilityName name :=
    fun name hname => isCapabilityName_of_mem hname
  exact ⟨capabilitiesOfCsv_append s t, hnames, capabilitiesOfCsv_intercalate hnames,
    fun left name right => capabilitiesOfCsv_padded, fun blanks => capabilitiesOfCsv_blanks⟩

/-- Blanks of several bytes, inside of a name and around one. -/
example : capabilitiesOfCsv "\u2003staking\u00a0, ,a\u3000b,," = ["staking", "a\u3000b"] := by
  decide

end ContractHost
