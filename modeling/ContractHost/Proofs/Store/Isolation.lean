import ContractHost.Proofs.Store.Stack
import ContractHost.Proofs.Text.Utf8

/-!
# Contracts Apart

All contracts keep their records in one memory, each behind a prefix of its own. Whether what one
of them writes can be seen by another is then a matter of the two prefixes alone: it cannot if
neither prefix starts with the other, and otherwise there is a key under which both reach the same
record.

The prefix of a contract is its address with a slash behind it. The slash keeps two addresses
apart of which one is the beginning of the other, such as `addr0` and `addr01`. It does so only
as long as the rest of the longer address does not begin with a slash itself: the contract at
`a/b` keeps its records where the contract at `a` keeps those whose keys start with `b/`.

## Main definitions

* `Store.Isolated`: What is written to one store is not seen in another.

## Theorems

* `Store.Shows.isolated_iff`: Stores behind prefixes of one memory.
* `Store.isolated_ofContract_iff`: The storages of contracts.
* `Store.ofContract_not_isolated`: Two contracts that share records.
-/

namespace ContractHost

namespace Store

/-- The request changes a record. -/
def Request.Writes : Request → Prop
  | set _ _ => True
  | delete _ => True
  | _ => False

/-- No row of changes to the first store makes a difference to what the second one answers. -/
def Isolated (s s' : Store) : Prop :=
  ∀ changes : List Request, (∀ q ∈ changes, q.Writes) → ∀ (q : Request), ¬ q.Writes →
    ∀ c : Chain, (s'.serve q (s.answers changes c).2).1 = (s'.serve q c).1

/-- If two prefixes start in different ways, no key behind the one is a key behind the other. -/
theorem not_prefix_append {pre pre' : Bytes} (h : ¬ pre <+: pre') (h' : ¬ pre' <+: pre)
    (key : Bytes) : ¬ pre <+: pre' ++ key := by
  intro hkey
  rcases List.prefix_or_prefix_of_prefix hkey (List.prefix_append pre' key) with hpre | hpre
  · exact h hpre
  · exact h' hpre

/-- A change to a record that both stores reach is seen. -/
theorem Shows.not_isolated {s s' : Store} {id : MemoryId} {pre pre' : Bytes}
    (h : s.Shows id pre) (h' : s'.Shows id pre') (key key' : Bytes)
    (hkey : pre ++ key = pre' ++ key') : ¬ s.Isolated s' := by
  intro hisolated
  have hwrites : ∀ q ∈ [Request.set key []], q.Writes := by
    intro q hq
    rw [List.mem_singleton.mp hq]
    trivial
  have hseen := hisolated [.set key []] hwrites (.get key') (fun h => h)
    (Chain.empty.setMemory id .empty)
  -- Nothing is there at first, and the empty value that is written is there afterwards.
  have hbefore : ((Chain.empty.setMemory id .empty).memory id).get? (pre' ++ key') = none := by
    rw [Chain.memory_setMemory_self]
    rfl
  rw [answers, answers, serve, serve, Attempt.bind_apply, Attempt.bind_apply,
    Attempt.bind_apply, h.set, h'.get, h'.get, Records.get?_under, Records.get?_under, hbefore]
    at hseen
  dsimp only [Attempt.pure_apply] at hseen
  rw [Chain.memory_setMemory_self, hkey, Table.get?_set_self] at hseen
  cases hseen

/-- Behind two prefixes of one memory, stores are isolated exactly if neither prefix starts with
    the other. -/
theorem Shows.isolated_iff {s s' : Store} {id : MemoryId} {pre pre' : Bytes}
    (h : s.Shows id pre) (h' : s'.Shows id pre') :
    s.Isolated s' ↔ ¬ pre <+: pre' ∧ ¬ pre' <+: pre := by
  constructor
  · intro hisolated
    constructor
    · rintro ⟨rest, hrest⟩
      refine h.not_isolated h' rest [] ?_ hisolated
      rw [hrest, List.append_nil]
    · rintro ⟨rest, hrest⟩
      refine h.not_isolated h' [] rest ?_ hisolated
      rw [hrest, List.append_nil]
  · rintro ⟨hpre, hpre'⟩ changes - q - c
    have hchanged := h.answers_within changes c
    -- All that has changed lies outside what the second store shows.
    have hview : ((s.answers changes c).2.memory id).under pre' = (c.memory id).under pre' := by
      apply Table.ext_get?
      intro key
      rw [Records.get?_under, Records.get?_under]
      exact hchanged.outside _ (not_prefix_append hpre hpre' key)
    exact (h'.serve_eq h' hview q).1

/-- The prefixes of two contracts compare as their addresses do, each with its slash. -/
theorem contractPrefix_prefix_iff (a b : String) :
    contractPrefix a <+: contractPrefix b ↔ a.toList ++ ['/'] <+: b.toList ++ ['/'] := by
  unfold contractPrefix Utf8.encode
  rw [Utf8.encodeChars_prefix_iff, String.toList_append, String.toList_append]
  rfl

/-- Of two different addresses without a slash neither begins the other once a slash is behind
    both. -/
theorem not_prefix_of_no_slash {as bs : List Char} (hne : as ≠ bs) (hbs : '/' ∉ bs) :
    ¬ as ++ ['/'] <+: bs ++ ['/'] := by
  rintro ⟨rest, hrest⟩
  rw [List.append_assoc] at hrest
  -- The first slash of the one is the first slash of the other.
  rcases List.append_eq_append_iff.mp hrest with ⟨more, hbs', hmore⟩ | ⟨more, has, hmore⟩
  · cases more with
    | nil => exact hne (by simpa using hbs'.symm)
    | cons d more =>
        have hd : '/' = d := (List.cons.inj hmore).1
        rw [hbs', ← hd] at hbs
        exact hbs (by simp)
  · cases more with
    | nil => exact hne (by simpa using has)
    | cons d more => simp at hmore

/-- The storages of two contracts are isolated unless the address of one of them, with a slash
    behind it, is how the address of the other with its slash begins. So the storages of two
    contracts are always isolated if there is no slash in their addresses. -/
theorem isolated_ofContract_iff (a b : String) :
    ((ofContract a).Isolated (ofContract b) ↔
      ¬ a.toList ++ ['/'] <+: b.toList ++ ['/'] ∧ ¬ b.toList ++ ['/'] <+: a.toList ++ ['/']) ∧
    (a ≠ b → '/' ∉ a.toList → '/' ∉ b.toList → (ofContract a).Isolated (ofContract b)) := by
  have hiff := (shows_ofContract a).isolated_iff (shows_ofContract b)
  rw [contractPrefix_prefix_iff, contractPrefix_prefix_iff] at hiff
  refine ⟨hiff, fun hne ha hb => hiff.mpr ⟨?_, ?_⟩⟩
  · exact not_prefix_of_no_slash (fun h => hne (String.toList_inj.mp h)) hb
  · exact not_prefix_of_no_slash (fun h => hne (String.toList_inj.mp h.symm)) ha

/-- The slash keeps an address apart from a longer one that begins with it. -/
theorem isolated_ofContract_of_longer :
    "addr0" ≠ "addr01" ∧ '/' ∉ "addr0".toList ∧ '/' ∉ "addr01".toList ∧
      (ofContract "addr0").Isolated (ofContract "addr01") := by
  have hne : "addr0" ≠ "addr01" := by decide
  have ha : '/' ∉ "addr0".toList := by decide
  have hb : '/' ∉ "addr01".toList := by decide
  exact ⟨hne, ha, hb, (isolated_ofContract_iff "addr0" "addr01").2 hne ha hb⟩

/-- It does not if the longer address goes on with a slash. -/
theorem ofContract_not_isolated :
    ¬ ∀ a b : String, a ≠ b → (ofContract a).Isolated (ofContract b) := by
  intro h
  have hisolated := h "a" "a/b" (by decide)
  have hkey : contractPrefix "a" ++ Utf8.encode "b/" = contractPrefix "a/b" ++ [] := by decide
  exact (shows_ofContract "a").not_isolated (shows_ofContract "a/b") _ _ hkey hisolated

end Store

end ContractHost
