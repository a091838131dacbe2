import ContractHost.Text.Blank
import Mathlib.Data.List.DropRight

/-!
# Stretches without Blanks at their Ends

A text is cut at its separators, and every stretch loses the blanks at its ends. Two things about
this are needed where such a list is read. Cutting goes on behind a separator as if the text
started there, so a text with another one behind a separator has the stretches of both. And the
blanks at the ends are all that a stretch loses: `Bare` says that there are none, and a bare text
is what is left of it whatever blanks are put around.

Only one of the two ends is looked at when blanks are dropped, and dropping those at the other
end could bring a blank to the front again if it took more than blanks. It does not, because what
is left starts where the text started, unless nothing is left at all.

## Main definitions

* `Text.Blanks`, `Text.Bare`: A text of blanks, and one without blanks at its ends.

## Theorems

* `Text.splitOn_append`, `Text.splitOn_eq_singleton`: The stretches of texts put together, and of
  a text without separators.
* `Text.not_mem_of_mem_splitOn`: There is no separator in a stretch.
* `Text.bare_trim`, `Text.trim_padded`: What is left without the blanks.
-/

namespace ContractHost.Text

/-! ## Stretches -/

theorem splitOn_eq (sep : Char) (cs : List Char) : splitOn sep cs = cs.splitOn sep := by
  induction cs with
  | nil => rw [List.splitOn_nil, splitOn]
  | cons c rest ih =>
      rw [List.splitOn_cons_eq_if_modifyHead, splitOn, ih]
      by_cases hc : c = sep
      · rw [if_pos hc, if_pos (beq_iff_eq.mpr hc)]
      · rw [if_neg hc, if_neg (fun h => hc (beq_iff_eq.mp h))]
        cases hrest : rest.splitOn sep with
        | nil => exact absurd hrest (List.splitOn_ne_nil sep rest)
        | cons first others => rfl

/-- A text is cut at each separator for itself. -/
theorem splitOn_append (sep : Char) (cs rest : List Char) :
    splitOn sep (cs ++ sep :: rest) = splitOn sep cs ++ splitOn sep rest := by
  rw [splitOn_eq, splitOn_eq, splitOn_eq, List.splitOn_append_cons_self]

theorem splitOn_eq_singleton {sep : Char} {cs : List Char} (h : sep ∉ cs) :
    splitOn sep cs = [cs] := by
  rw [splitOn_eq, List.splitOn_eq_singleton h]

theorem not_mem_of_mem_splitOn {sep : Char} {cs part : List Char} (h : part ∈ splitOn sep cs) :
    sep ∉ part := by
  induction cs generalizing part with
  | nil =>
      rw [splitOn, List.mem_singleton] at h
      rw [h]
      exact List.not_mem_nil
  | cons c rest ih =>
      rw [splitOn] at h
      by_cases hc : c = sep
      · rw [if_pos hc] at h
        rcases List.mem_cons.mp h with rfl | h
        · exact List.not_mem_nil
        · exact ih h
      · rw [if_neg hc] at h
        cases hrest : splitOn sep rest with
        | nil =>
            rw [hrest, List.mem_singleton] at h
            rw [h, List.mem_singleton]
            exact fun hsep => hc hsep.symm
        | cons first others =>
            rw [hrest] at h ih
            -- The character goes in front of the first stretch, and it is no separator.
            rcases List.mem_cons.mp h with rfl | h
            · rw [List.mem_cons, not_or]
              exact ⟨fun hsep => hc hsep.symm, ih List.mem_cons_self⟩
            · exact ih (List.mem_cons_of_mem first h)

/-! ## Blanks at the ends -/

/-- There is nothing but blanks in the text. -/
def Blanks (cs : List Char) : Prop := ∀ c ∈ cs, isBlank c = true

/-- There are no blanks at the ends of the text. -/
structure Bare (cs : List Char) : Prop where
  head : ∀ c ∈ cs.head?, isBlank c = false
  last : ∀ c ∈ cs.getLast?, isBlank c = false

theorem trim_eq (cs : List Char) : trim cs = (cs.dropWhile isBlank).rdropWhile isBlank := rfl

/-- What is left has been there before, in the same order. -/
theorem trim_sublist (cs : List Char) : (trim cs).Sublist cs := by
  rw [trim_eq]
  exact (List.rdropWhile_prefix _ _).sublist.trans (List.dropWhile_suffix _).sublist

/-- Nothing but text is left at either end. -/
theorem bare_trim (cs : List Char) : Bare (trim cs) where
  head c hc := by
    have hprefix := List.rdropWhile_prefix isBlank (cs.dropWhile isBlank)
    rw [← trim_eq] at hprefix
    rcases hprefix with ⟨rest, hrest⟩
    -- What is left is not empty, so it starts where the text without its first blanks does.
    have hfirst : (cs.dropWhile isBlank).head? = some c := by
      rw [← hrest, List.head?_append, Option.mem_def.mp hc, Option.some_or]
    have hnot := List.head?_dropWhile_not isBlank cs
    rw [hfirst] at hnot
    exact hnot
  last c hc := by
    rcases List.mem_getLast?_eq_getLast hc with ⟨hne, rfl⟩
    exact Bool.eq_false_iff.mpr (List.rdropWhile_last_not isBlank (cs.dropWhile isBlank) hne)

theorem trim_blanks {cs : List Char} (h : Blanks cs) : trim cs = [] := by
  rw [trim, List.dropWhile_eq_nil_iff.mpr h]
  rfl

theorem dropWhile_padded {left cs : List Char} (hleft : Blanks left)
    (hcs : ∀ c ∈ cs.head?, isBlank c = false) : (left ++ cs).dropWhile isBlank = cs := by
  rw [List.dropWhile_append_of_pos hleft]
  cases cs with
  | nil => rfl
  | cons c rest => rw [List.dropWhile_cons_of_neg (Bool.eq_false_iff.mp (hcs c rfl))]

/-- A bare text is left of what has blanks around it. -/
theorem trim_padded {left cs right : List Char} (hleft : Blanks left) (hright : Blanks right)
    (hcs : Bare cs) : trim (left ++ cs ++ right) = cs := by
  -- With nothing in between, the blanks of both sides run together.
  by_cases hne : cs = []
  · rw [hne, List.append_nil]
    exact trim_blanks (List.forall_mem_append.mpr ⟨hleft, hright⟩)
  have hfront : (left ++ cs ++ right).dropWhile isBlank = cs ++ right := by
    rw [List.append_assoc]
    refine dropWhile_padded hleft (fun c hc => ?_)
    rw [List.head?_append_of_ne_nil cs hne] at hc
    exact hcs.head c hc
  -- The blanks at the end are dropped from the reversed text, where they come first.
  have hback : (right.reverse ++ cs.reverse).dropWhile isBlank = cs.reverse := by
    refine dropWhile_padded (fun c hc => hright c (List.mem_reverse.mp hc)) (fun c hc => ?_)
    rw [List.head?_reverse] at hc
    exact hcs.last c hc
  rw [trim, hfront, List.reverse_append, hback, List.reverse_reverse]

end ContractHost.Text
