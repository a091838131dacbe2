import ContractHost.Code.Cache
import ContractHost.Proofs.Table
import Mathlib.Algebra.GroupWithZero.Nat
import Mathlib.Data.List.Dedup

/-!
# The Books of the Module Cache

The cache counts as it goes: a module is counted when it is saved for the first time, a pin when
it is new, and when it is taken away it is counted off again by a subtraction that would stop at
zero. Whether the counters are right is therefore a matter of everything that was asked before.

What was asked is listed here with the latest request first, and the books are kept from that
list alone: which modules were saved, which checksums are pinned, and where each load found its
module. The counters of the cache agree with these books after every row of requests. In
particular a pin that is taken away was counted, so no subtraction stops short.

Modules are told apart by their checksums. The books are right as long as the checksums of the
saved modules differ, the modules fit into memory, and the counters of loads do not run over.

## Main definitions

* `ModuleCache.Request`: What can be asked of the cache.
* `ModuleCache.after`: The cache after a row of requests.
* `ModuleCache.saved`, `ModuleCache.isPinned`, `ModuleCache.loads`: The books.
* `ModuleCache.Balanced`: A cache agrees with the books.

## Theorems

* `ModuleCache.Balanced.save`, `ModuleCache.Balanced.load`, `ModuleCache.Balanced.pin`,
  `ModuleCache.Balanced.unpin`: Each request keeps the agreement.
* `ModuleCache.balanced_after`: So does every row of them.
* `ModuleCache.after_accounts`: What the cache answers and counts.
-/

namespace ContractHost

theorem Checksum.bytes_inj {c c' : Checksum} : c.bytes = c'.bytes ↔ c = c' := by
  constructor
  · intro h
    cases c
    cases c'
    cases h
    rfl
  · intro h
    rw [h]

namespace ModuleCache

/-- What can be asked of the cache. -/
inductive Request
  | save (code : Bytes)
  | load (c : Checksum)
  | pin (c : Checksum)
  | unpin (c : Checksum)
  | analyze (c : Checksum)
deriving DecidableEq

namespace Request

/-- The module that a request saves. The empty one is turned away. -/
def saved? : Request → Option Bytes
  | save code => if code = [] then none else some code
  | _ => none

/-- The request loads a module. -/
def isLoad : Request → Bool
  | load _ => true
  | _ => false

/-- The cache after a request. -/
def applied : Request → ModuleCache → ModuleCache
  | save code, cache => (cache.save code).2
  | load c, cache => (cache.load c).2
  | pin c, cache => (cache.pin c).2
  | unpin c, cache => cache.unpin c
  | analyze _, cache => cache

end Request

/-- The cache after a row of requests, of which the latest comes first. -/
def after : List Request → ModuleCache
  | [] => empty
  | q :: past => q.applied (after past)

/-! ## The books -/

/-- The different modules that were saved. -/
def saved (past : List Request) : List Bytes := (past.filterMap Request.saved?).dedup

/-- Whether a checksum is pinned: it was pinned after its module had been saved, and has not been
    unpinned since. -/
def isPinned (c : Checksum) : List Request → Bool
  | [] => false
  | .pin c' :: past =>
      isPinned c past || decide (c' = c ∧ ∃ w ∈ saved past, Checksum.ofCode w = c)
  | .unpin c' :: past => isPinned c past && decide (c' ≠ c)
  | _ :: past => isPinned c past

/-- The modules whose checksums are pinned. -/
def pinnedModules (past : List Request) : List Bytes :=
  (saved past).filter fun w => isPinned (.ofCode w) past

/-- Where a load finds its module. -/
inductive Place
  | pinned
  | memory
  | nowhere
deriving DecidableEq

/-- Where a module is that has the checksum. -/
def place (past : List Request) (c : Checksum) : Place :=
  if isPinned c past then .pinned
  else if ∃ w ∈ saved past, Checksum.ofCode w = c then .memory
  else .nowhere

/-- How many loads found their module at a place, which is where it was when they were made. -/
def loads (p : Place) : List Request → Nat
  | [] => 0
  | .load c :: past => loads p past + if place past c = p then 1 else 0
  | _ :: past => loads p past

/-- The length of all modules of a list together. -/
def total (ws : List Bytes) : Nat := (ws.map List.length).sum

/-- The cache agrees with the books. -/
structure Balanced (past : List Request) (cache : ModuleCache) : Prop where
  codes : ∀ c : Checksum,
    cache.codes.get? c.bytes = (saved past).find? fun w => Checksum.ofCode w = c
  pinned : ∀ c : Checksum, cache.pinned.contains c.bytes = isPinned c past
  elementsMemory : cache.metrics.elementsMemory.toNat = (saved past).length
  sizeMemory : cache.metrics.sizeMemory.toNat = total (saved past)
  elementsPinned : cache.metrics.elementsPinned.toNat = (pinnedModules past).length
  sizePinned : cache.metrics.sizePinned.toNat = total (pinnedModules past)
  hitsPinned : cache.metrics.hitsPinned.toNat = loads .pinned past
  hitsMemory : cache.metrics.hitsMemory.toNat = loads .memory past
  misses : cache.metrics.misses.toNat = loads .nowhere past

/-- What the books take for granted: the checksums of the saved modules differ, all of them
    together fit into memory, and there are not more loads than can be counted. -/
structure Countable (past : List Request) : Prop where
  checksums : ∀ w ∈ saved past, ∀ w' ∈ saved past,
    Checksum.ofCode w = Checksum.ofCode w' → w = w'
  size : total (saved past) < UInt64.size
  loads : past.countP Request.isLoad < UInt32.size

/-! ## Laws of the books -/

/-- The books list the modules that are not empty and that were to be saved. -/
theorem mem_saved_iff {past : List Request} {w : Bytes} :
    w ∈ saved past ↔ w ≠ [] ∧ .save w ∈ past := by
  unfold saved
  rw [List.mem_dedup, List.mem_filterMap]
  constructor
  · rintro ⟨q, hq, hsaved⟩
    cases q with
    | save code =>
        rw [Request.saved?] at hsaved
        by_cases hcode : code = []
        · rw [if_pos hcode] at hsaved
          cases hsaved
        · rw [if_neg hcode, Option.some.injEq] at hsaved
          rw [← hsaved]
          exact ⟨hcode, hq⟩
    | load c => cases hsaved
    | pin c => cases hsaved
    | unpin c => cases hsaved
    | analyze c => cases hsaved
  · rintro ⟨hw, hmem⟩
    exact ⟨.save w, hmem, if_neg hw⟩

theorem nodup_saved (past : List Request) : (saved past).Nodup := List.nodup_dedup _

theorem mem_saved_cons {q : Request} {past : List Request} {w : Bytes} (h : w ∈ saved past) :
    w ∈ saved (q :: past) := by
  rw [mem_saved_iff] at h ⊢
  exact ⟨h.1, List.mem_cons_of_mem q h.2⟩

theorem saved_cons_of_none {q : Request} {past : List Request} (h : q.saved? = none) :
    saved (q :: past) = saved past := by
  unfold saved
  rw [List.filterMap_cons_none h]

/-- A module that is saved again is not listed again. -/
theorem saved_cons_of_mem {code : Bytes} {past : List Request} (h : code ∈ saved past) :
    saved (.save code :: past) = saved past := by
  have hcode : (Request.save code).saved? = some code := if_neg (mem_saved_iff.mp h).1
  unfold saved at h ⊢
  rw [List.filterMap_cons_some hcode, List.dedup_cons_of_mem (List.mem_dedup.mp h)]

theorem saved_cons_of_not_mem {code : Bytes} {past : List Request} (hcode : code ≠ [])
    (h : code ∉ saved past) : saved (.save code :: past) = code :: saved past := by
  have hsaved : (Request.save code).saved? = some code := if_neg hcode
  unfold saved at h ⊢
  rw [List.filterMap_cons_some hsaved, List.dedup_cons_of_notMem (mt List.mem_dedup.mpr h)]

/-- Only what has been saved is pinned. -/
theorem saved_of_isPinned {c : Checksum} {past : List Request} (h : isPinned c past = true) :
    ∃ w ∈ saved past, Checksum.ofCode w = c := by
  induction past with
  | nil => cases h
  | cons q past ih =>
      -- What was pinned before had been saved before.
      have hearlier : isPinned c past = true → ∃ w ∈ saved (q :: past), Checksum.ofCode w = c := by
        intro hpinned
        rcases ih hpinned with ⟨w, hw, hc⟩
        exact ⟨w, mem_saved_cons hw, hc⟩
      cases q with
      | save code => exact hearlier h
      | load c' => exact hearlier h
      | analyze c' => exact hearlier h
      | unpin c' => exact hearlier (Bool.and_eq_true_iff.mp h).1
      | pin c' =>
          rcases Bool.or_eq_true_iff.mp h with hpinned | hnow
          · exact hearlier hpinned
          · rcases of_decide_eq_true hnow with ⟨-, w, hw, hc⟩
            exact ⟨w, mem_saved_cons hw, hc⟩

/-- Every load is counted at one place. -/
theorem loads_add (past : List Request) :
    loads .pinned past + loads .memory past + loads .nowhere past =
      past.countP Request.isLoad := by
  induction past with
  | nil => rfl
  | cons q past ih =>
      cases q with
      | load c =>
          -- One load is one more at the place where its module is now.
          rw [List.countP_cons_of_pos rfl, ← ih]
          simp only [loads]
          cases place past c with
          | pinned =>
              rw [if_pos rfl, if_neg (by decide), if_neg (by decide)]
              omega
          | memory =>
              rw [if_neg (by decide), if_pos rfl, if_neg (by decide)]
              omega
          | nowhere =>
              rw [if_neg (by decide), if_neg (by decide), if_pos rfl]
              omega
      | save code => exact ih
      | pin c => exact ih
      | unpin c => exact ih
      | analyze c => exact ih

theorem total_cons (w : Bytes) (ws : List Bytes) : total (w :: ws) = w.length + total ws := rfl

theorem total_perm {ws ws' : List Bytes} (h : ws.Perm ws') : total ws = total ws' :=
  (h.map List.length).sum_nat

theorem total_filter_le (p : Bytes → Bool) (ws : List Bytes) : total (ws.filter p) ≤ total ws := by
  induction ws with
  | nil => exact Nat.le_refl 0
  | cons w ws ih =>
      by_cases hw : p w = true
      · rw [List.filter_cons_of_pos hw, total_cons, total_cons]
        omega
      · rw [List.filter_cons_of_neg hw, total_cons]
        omega

/-- There are not more modules than bytes in them. -/
theorem length_le_total {ws : List Bytes} (h : ∀ w ∈ ws, w ≠ []) : ws.length ≤ total ws := by
  induction ws with
  | nil => exact Nat.le_refl 0
  | cons w ws ih =>
      have hw : 0 < w.length := List.length_pos_iff.mpr (h w List.mem_cons_self)
      have hws := ih fun w' hw' => h w' (List.mem_cons_of_mem w hw')
      rw [total_cons, List.length_cons]
      omega

/-- There are not more saved modules than bytes in them, since none of them is empty. -/
theorem length_saved_le (past : List Request) : (saved past).length ≤ total (saved past) :=
  length_le_total fun _ hw => (mem_saved_iff.mp hw).1

/-- If a test lets through one member that another test does not, and otherwise the same ones,
    one more member is selected. -/
theorem filter_perm_cons {p p' : Bytes → Bool} {w : Bytes} {ws : List Bytes}
    (hnodup : ws.Nodup) (hw : w ∈ ws) (hp : p w = false) (hp' : p' w = true)
    (hother : ∀ x ∈ ws, x ≠ w → p' x = p x) : (ws.filter p').Perm (w :: ws.filter p) := by
  have hsplit : ws.Perm (w :: ws.erase w) := List.perm_cons_erase hw
  have hothers : (ws.erase w).filter p' = (ws.erase w).filter p := by
    apply List.filter_congr
    intro x hx
    rcases (List.Nodup.mem_erase_iff hnodup).mp hx with ⟨hne, hmem⟩
    exact hother x hmem hne
  -- The member is selected by one test and not by the other, and all others are treated alike.
  have hwith : (ws.filter p').Perm (w :: (ws.erase w).filter p') := by
    rw [← List.filter_cons_of_pos hp']
    exact hsplit.filter p'
  have hwithout : (ws.filter p).Perm ((ws.erase w).filter p) := by
    have hfilter := hsplit.filter p
    rwa [List.filter_cons_of_neg (by simp [hp])] at hfilter
  rw [hothers] at hwith
  exact hwith.trans (hwithout.symm.cons w)

/-! ## The books after one more request -/

/-- The books list a module anew only if it is saved for the first time. -/
theorem saved_cons_cases (q : Request) (past : List Request) :
    saved (q :: past) = saved past ∨ ∃ code, q = .save code ∧ code ≠ [] ∧ code ∉ saved past := by
  cases hq : q.saved? with
  | none => exact .inl (saved_cons_of_none hq)
  | some code =>
      cases q with
      | save code' =>
          by_cases hcode : code' = []
          · exact .inl (saved_cons_of_none (if_pos hcode))
          · by_cases hmem : code' ∈ saved past
            · exact .inl (saved_cons_of_mem hmem)
            · exact .inr ⟨code', rfl, hcode, hmem⟩
      | load c => cases hq
      | pin c => cases hq
      | unpin c => cases hq
      | analyze c => cases hq

theorem total_saved_le (q : Request) (past : List Request) :
    total (saved past) ≤ total (saved (q :: past)) := by
  rcases saved_cons_cases q past with hsaved | ⟨code, rfl, hcode, hmem⟩
  · exact Nat.le_of_eq (congrArg total hsaved.symm)
  · rw [saved_cons_of_not_mem hcode hmem, total_cons]
    exact Nat.le_add_left _ _

/-- What can be counted now could be counted before. -/
theorem Countable.earlier {q : Request} {past : List Request} (h : Countable (q :: past)) :
    Countable past where
  checksums := fun w hw w' hw' => h.checksums w (mem_saved_cons hw) w' (mem_saved_cons hw')
  size := Nat.lt_of_le_of_lt (total_saved_le q past) h.size
  loads := Nat.lt_of_le_of_lt ((List.sublist_cons_self q past).countP_le) h.loads

theorem Countable.find_saved {past : List Request} (h : Countable past) {w : Bytes}
    (hw : w ∈ saved past) :
    ((saved past).find? fun x => Checksum.ofCode x = .ofCode w) = some w := by
  cases hfind : (saved past).find? fun x => Checksum.ofCode x = .ofCode w with
  | none =>
      have hnone := List.find?_eq_none.mp hfind w hw
      exact absurd (decide_eq_true rfl) hnone
  | some x =>
      have hx : Checksum.ofCode x = .ofCode w := by simpa using List.find?_some hfind
      -- Another module would have to have the same checksum, and the saved ones do not share any.
      rw [h.checksums x (List.mem_of_find?_eq_some hfind) w hw hx]

theorem find_saved_eq_none {past : List Request} {c : Checksum}
    (h : ∀ w ∈ saved past, Checksum.ofCode w ≠ c) :
    ((saved past).find? fun w => Checksum.ofCode w = c) = none := by
  apply List.find?_eq_none.mpr
  intro w hw
  simpa using h w hw

/-- If no other modules are saved and the same ones are pinned, the same modules are pinned. -/
theorem pinnedModules_congr {past past' : List Request} (hsaved : saved past' = saved past)
    (h : ∀ w ∈ saved past, isPinned (.ofCode w) past' = isPinned (.ofCode w) past) :
    pinnedModules past' = pinnedModules past := by
  unfold pinnedModules
  rw [hsaved]
  exact List.filter_congr h

/-- A module that is saved for the first time is not pinned yet. -/
theorem Countable.pinnedModules_save {past : List Request} {code : Bytes}
    (h : Countable (.save code :: past)) (hcode : code ≠ []) (hmem : code ∉ saved past) :
    pinnedModules (.save code :: past) = pinnedModules past := by
  have hpinned : ¬ isPinned (.ofCode code) past = true := by
    intro hpinned
    -- The checksum would be that of a module saved before, so it would be this very module.
    rcases saved_of_isPinned hpinned with ⟨w, hw, hchecksum⟩
    have hnew : code ∈ saved (.save code :: past) := by
      rw [saved_cons_of_not_mem hcode hmem]
      exact List.mem_cons_self
    rw [h.checksums w (mem_saved_cons hw) code hnew hchecksum] at hw
    exact hmem hw
  unfold pinnedModules
  rw [saved_cons_of_not_mem hcode hmem]
  exact List.filter_cons_of_neg hpinned

/-- A pin of a saved module that is new makes one more pinned module. -/
theorem Countable.pinnedModules_pin {past : List Request} (h : Countable past) {w : Bytes}
    (hw : w ∈ saved past) (hnew : isPinned (.ofCode w) past = false) :
    (pinnedModules (.pin (.ofCode w) :: past)).Perm (w :: pinnedModules past) := by
  have hsaved : saved (.pin (.ofCode w) :: past) = saved past := saved_cons_of_none rfl
  unfold pinnedModules
  rw [hsaved]
  refine filter_perm_cons (nodup_saved past) hw hnew ?_ ?_
  · rw [isPinned, hnew, Bool.false_or, decide_eq_true_eq]
    exact ⟨rfl, w, hw, rfl⟩
  · intro x hx hne
    have hother : Checksum.ofCode w ≠ .ofCode x := fun heq => hne (h.checksums w hw x hx heq).symm
    rw [isPinned, decide_eq_false (fun hpin => hother hpin.1), Bool.or_false]

/-- A pin that is taken away leaves one pinned module less. -/
theorem Countable.pinnedModules_unpin {past : List Request} (h : Countable past) {w : Bytes}
    (hw : w ∈ saved past) (hpinned : isPinned (.ofCode w) past = true) :
    (pinnedModules past).Perm (w :: pinnedModules (.unpin (.ofCode w) :: past)) := by
  have hsaved : saved (.unpin (.ofCode w) :: past) = saved past := saved_cons_of_none rfl
  unfold pinnedModules
  rw [hsaved]
  refine filter_perm_cons (nodup_saved past) hw ?_ hpinned ?_
  · rw [isPinned, decide_eq_false (fun hne => hne rfl), Bool.and_false]
  · intro x hx hne
    have hother : Checksum.ofCode w ≠ .ofCode x := fun heq => hne (h.checksums w hw x hx heq).symm
    rw [isPinned, decide_eq_true hother, Bool.and_true]

/-! ## The counters -/

theorem toNat_succ {n : UInt64} (h : n.toNat + 1 < UInt64.size) :
    (n + 1).toNat = n.toNat + 1 := by
  rw [UInt64.toNat_add, UInt64.toNat_one]
  exact Nat.mod_eq_of_lt h

theorem toNat_succ32 {n : UInt32} (h : n.toNat + 1 < UInt32.size) :
    (n + 1).toNat = n.toNat + 1 := by
  rw [UInt32.toNat_add, UInt32.toNat_one]
  exact Nat.mod_eq_of_lt h

theorem toNat_size {w : Bytes} (h : w.length < UInt64.size) : w.size.toNat = w.length := by
  rw [Bytes.size, Word.toNat_clamp]
  unfold Word.top
  omega

theorem toNat_add_size {n : UInt64} {w : Bytes} (h : n.toNat + w.length < UInt64.size) :
    (n + w.size).toNat = n.toNat + w.length := by
  have hsize := toNat_size (w := w) (by omega)
  rw [UInt64.toNat_add, hsize]
  exact Nat.mod_eq_of_lt h

/-- The counters after a load that has found its module at a place. -/
def counted (m : Metrics) : Place → Metrics
  | .pinned => { m with hitsPinned := m.hitsPinned + 1 }
  | .memory => { m with hitsMemory := m.hitsMemory + 1 }
  | .nowhere => { m with misses := m.misses + 1 }

@[simp] theorem counted_elementsMemory (m : Metrics) (p : Place) :
    (counted m p).elementsMemory = m.elementsMemory := by cases p <;> rfl

@[simp] theorem counted_sizeMemory (m : Metrics) (p : Place) :
    (counted m p).sizeMemory = m.sizeMemory := by cases p <;> rfl

@[simp] theorem counted_elementsPinned (m : Metrics) (p : Place) :
    (counted m p).elementsPinned = m.elementsPinned := by cases p <;> rfl

@[simp] theorem counted_sizePinned (m : Metrics) (p : Place) :
    (counted m p).sizePinned = m.sizePinned := by cases p <;> rfl

/-! ## Every request keeps the agreement -/

theorem balanced_empty : Balanced [] empty where
  codes := fun _ => rfl
  pinned := fun _ => rfl
  elementsMemory := rfl
  sizeMemory := rfl
  elementsPinned := rfl
  sizePinned := rfl
  hitsPinned := rfl
  hitsMemory := rfl
  misses := rfl

section Requests

variable {past : List Request} {cache : ModuleCache}

/-- What is found under a checksum is what the books list. -/
theorem Balanced.get?_of_mem (hb : Balanced past cache) (h : Countable past) {w : Bytes}
    (hw : w ∈ saved past) : cache.codes.get? (Checksum.ofCode w).bytes = some w := by
  rw [hb.codes, h.find_saved hw]

theorem Balanced.get?_eq_none (hb : Balanced past cache) {c : Checksum}
    (h : ∀ w ∈ saved past, Checksum.ofCode w ≠ c) : cache.codes.get? c.bytes = none := by
  rw [hb.codes, find_saved_eq_none h]

theorem Balanced.mem_of_get? (hb : Balanced past cache) {c : Checksum} {w : Bytes}
    (h : cache.codes.get? c.bytes = some w) : w ∈ saved past ∧ Checksum.ofCode w = c := by
  rw [hb.codes] at h
  exact ⟨List.mem_of_find?_eq_some h, by simpa using List.find?_some h⟩

/-- There is code under the checksums of the saved modules and under no others. -/
theorem Balanced.contains_iff (hb : Balanced past cache) {c : Checksum} :
    cache.codes.contains c.bytes = true ↔ ∃ w ∈ saved past, Checksum.ofCode w = c := by
  rw [Table.contains, hb.codes, List.find?_isSome]
  simp

/-- A request that changes neither the cache nor the books keeps the agreement. -/
theorem Balanced.unchanged (hb : Balanced past cache) {past' : List Request}
    (hsaved : saved past' = saved past) (hpinned : ∀ c, isPinned c past' = isPinned c past)
    (hloads : ∀ p, loads p past' = loads p past) : Balanced past' cache := by
  have hmodules := pinnedModules_congr hsaved fun w _ => hpinned (.ofCode w)
  constructor
  · rw [hsaved]
    exact hb.codes
  · intro c
    rw [hpinned, hb.pinned]
  · rw [hsaved, hb.elementsMemory]
  · rw [hsaved, hb.sizeMemory]
  · rw [hmodules, hb.elementsPinned]
  · rw [hmodules, hb.sizePinned]
  · rw [hloads, hb.hitsPinned]
  · rw [hloads, hb.hitsMemory]
  · rw [hloads, hb.misses]

/-- To save what has been saved changes nothing. -/
theorem save_of_get? {code : Bytes}
    (h : cache.codes.get? (Checksum.ofCode code).bytes = some code) :
    (cache.save code).2 = cache := by
  have hcontains := (Table.contains_iff cache.codes _).mpr ⟨code, h⟩
  unfold save
  by_cases hcode : code.isEmpty = true
  · rw [if_pos hcode]
  · rw [if_neg hcode]
    dsimp only
    rw [if_pos hcontains, Table.set_of_get? _ h]

/-- A module that is saved anew is stored and counted, and any other changes nothing. -/
theorem Balanced.save (hb : Balanced past cache) {code : Bytes}
    (h : Countable (.save code :: past)) :
    Balanced (.save code :: past) (cache.save code).2 := by
  rcases saved_cons_cases (.save code) past with hsaved | ⟨code', heq, hcode, hmem⟩
  · -- Nothing new is in the books: the module is empty, or it has been saved before.
    have hsame : (cache.save code).2 = cache := by
      by_cases hcode : code = []
      · rw [hcode]
        rfl
      · have hmem : code ∈ saved past := by
          rw [← hsaved]
          exact mem_saved_iff.mpr ⟨hcode, List.mem_cons_self⟩
        exact save_of_get? (hb.get?_of_mem h.earlier hmem)
    rw [hsame]
    exact hb.unchanged hsaved (fun _ => rfl) (fun _ => rfl)
  · cases heq
    have hsaved := saved_cons_of_not_mem hcode hmem
    have hmodules := h.pinnedModules_save hcode hmem
    -- A module that is not in the books has a checksum of its own, so it is stored and counted.
    have hnew : ¬ cache.codes.contains (Checksum.ofCode code).bytes = true := by
      rw [hb.contains_iff]
      rintro ⟨w, hw, hchecksum⟩
      have hself : code ∈ saved (.save code :: past) := by
        rw [hsaved]
        exact List.mem_cons_self
      rw [h.checksums w (mem_saved_cons hw) code hself hchecksum] at hw
      exact hmem hw
    -- The new module is among those that fit into memory, so the counters have room for it.
    have hlength := length_saved_le (.save code :: past)
    have hsize := h.size
    rw [hsaved, total_cons] at hlength hsize
    rw [List.length_cons] at hlength
    have helements := hb.elementsMemory
    have hbytes := hb.sizeMemory
    have hcode' : ¬ code.isEmpty = true := by simpa using hcode
    unfold ModuleCache.save
    rw [if_neg hcode']
    dsimp only
    rw [if_neg hnew]
    constructor
    · intro c
      dsimp only
      rw [hsaved, List.find?_cons, Table.get?_set, hb.codes]
      by_cases hc : Checksum.ofCode code = c
      · rw [if_pos (by rw [hc]), decide_eq_true hc]
      · rw [if_neg (fun hbytes => hc (Checksum.bytes_inj.mp hbytes).symm), decide_eq_false hc]
    · exact hb.pinned
    · dsimp only
      rw [toNat_succ (by omega), hb.elementsMemory, hsaved, List.length_cons]
    · dsimp only
      rw [toNat_add_size (by omega), hb.sizeMemory, hsaved, total_cons, Nat.add_comm]
    · rw [hmodules]
      exact hb.elementsPinned
    · rw [hmodules]
      exact hb.sizePinned
    · exact hb.hitsPinned
    · exact hb.hitsMemory
    · exact hb.misses

/-- A load counts the place where its module is, and changes nothing else. -/
theorem Balanced.load_eq (hb : Balanced past cache) (c : Checksum) :
    (cache.load c).2 = { cache with metrics := counted cache.metrics (place past c) } := by
  unfold ModuleCache.load place
  rw [← hb.pinned]
  cases hcode : cache.codes.get? c.bytes with
  | some code =>
      have hsaved : ∃ w ∈ saved past, Checksum.ofCode w = c := ⟨code, hb.mem_of_get? hcode⟩
      by_cases hpinned : cache.pinned.contains c.bytes = true
      · dsimp only
        rw [if_pos hpinned, if_pos hpinned]
        rfl
      · dsimp only
        rw [if_neg hpinned, if_neg hpinned, if_pos hsaved]
        rfl
  | none =>
      -- What has no code has not been saved, and so it cannot be pinned either.
      have hunsaved : ¬ ∃ w ∈ saved past, Checksum.ofCode w = c := by
        rw [← hb.contains_iff, Table.contains_iff, hcode]
        simp
      have hunpinned : ¬ cache.pinned.contains c.bytes = true := by
        rw [hb.pinned]
        exact fun hpinned => hunsaved (saved_of_isPinned hpinned)
      rw [if_neg hunpinned, if_neg hunsaved]
      rfl

/-- A load is counted at its place. -/
theorem Balanced.load (hb : Balanced past cache) {c : Checksum}
    (h : Countable (.load c :: past)) : Balanced (.load c :: past) (cache.load c).2 := by
  have hsaved : saved (.load c :: past) = saved past := saved_cons_of_none rfl
  have hmodules : pinnedModules (.load c :: past) = pinnedModules past :=
    pinnedModules_congr hsaved fun _ _ => rfl
  -- No counter of loads is larger than the number of loads.
  have hloads := h.loads
  rw [List.countP_cons_of_pos rfl, ← loads_add] at hloads
  have hpinned := hb.hitsPinned
  have hmemory := hb.hitsMemory
  have hmisses := hb.misses
  rw [hb.load_eq]
  constructor
  · rw [hsaved]
    exact hb.codes
  · exact hb.pinned
  · rw [hsaved, counted_elementsMemory, hb.elementsMemory]
  · rw [hsaved, counted_sizeMemory, hb.sizeMemory]
  · rw [hmodules, counted_elementsPinned, hb.elementsPinned]
  · rw [hmodules, counted_sizePinned, hb.sizePinned]
  · rw [loads, ← hpinned]
    cases place past c with
    | pinned => exact toNat_succ32 (by omega)
    | memory => rfl
    | nowhere => rfl
  · rw [loads, ← hmemory]
    cases place past c with
    | pinned => rfl
    | memory => exact toNat_succ32 (by omega)
    | nowhere => rfl
  · rw [loads, ← hmisses]
    cases place past c with
    | pinned => rfl
    | memory => rfl
    | nowhere => exact toNat_succ32 (by omega)

/-- A pin of what is pinned changes nothing. -/
theorem pin_of_contains {c : Checksum} (h : cache.pinned.contains c.bytes = true) :
    (cache.pin c).2 = cache := by
  rcases (Table.contains_iff _ _).mp h with ⟨⟨⟩, hget⟩
  unfold pin
  cases cache.codes.get? c.bytes with
  | none => rfl
  | some code =>
      dsimp only
      rw [if_pos h, Table.set_of_get? _ hget]

theorem length_pinnedModules_le (past : List Request) :
    (pinnedModules past).length ≤ total (saved past) :=
  Nat.le_trans (List.length_filter_le _ _) (length_saved_le past)

/-- A pin is counted if it is new and there is code for it. -/
theorem Balanced.pin (hb : Balanced past cache) {c : Checksum}
    (h : Countable (.pin c :: past)) : Balanced (.pin c :: past) (cache.pin c).2 := by
  have hsaved : saved (.pin c :: past) = saved past := saved_cons_of_none rfl
  cases hcode : cache.codes.get? c.bytes with
  | none =>
      -- Without code the pin is refused, and the books do not list it either.
      have hunsaved : ¬ ∃ w ∈ saved past, Checksum.ofCode w = c := by
        rw [← hb.contains_iff, Table.contains_iff, hcode]
        simp
      have hsame : (cache.pin c).2 = cache := by
        unfold ModuleCache.pin
        rw [hcode]
      rw [hsame]
      refine hb.unchanged hsaved ?_ (fun _ => rfl)
      intro c'
      rw [isPinned, decide_eq_false, Bool.or_false]
      rintro ⟨rfl, hw⟩
      exact hunsaved hw
  | some w =>
      rcases hb.mem_of_get? hcode with ⟨hw, rfl⟩
      by_cases hpinned : cache.pinned.contains (Checksum.ofCode w).bytes = true
      · -- A pin that is made again is in the books already.
        rw [pin_of_contains hpinned]
        refine hb.unchanged hsaved ?_ (fun _ => rfl)
        intro c'
        rw [isPinned]
        by_cases hc : Checksum.ofCode w = c'
        · rw [← hc, ← hb.pinned, hpinned, Bool.true_or]
        · rw [decide_eq_false (fun hpin => hc hpin.1), Bool.or_false]
      · have hnew : isPinned (.ofCode w) past = false := by
          rw [← hb.pinned]
          exact Bool.not_eq_true _ |>.mp hpinned
        have hmodules := h.earlier.pinnedModules_pin hw hnew
        -- The pinned modules are among those that fit into memory, so the counters have room.
        have hlength := length_pinnedModules_le (.pin (.ofCode w) :: past)
        have htotal : total (pinnedModules (.pin (.ofCode w) :: past)) ≤ _ := total_filter_le _ _
        have hsize := h.size
        rw [hmodules.length_eq, List.length_cons] at hlength
        rw [total_perm hmodules, total_cons] at htotal
        have helements := hb.elementsPinned
        have hbytes := hb.sizePinned
        unfold ModuleCache.pin
        rw [hcode]
        dsimp only
        rw [if_neg hpinned]
        constructor
        · rw [hsaved]
          exact hb.codes
        · intro c'
          have hpinned' := hb.pinned c'
          rw [Table.contains] at hpinned'
          rw [isPinned, ← hpinned', Table.contains, Table.get?_set]
          by_cases hc : Checksum.ofCode w = c'
          · rw [if_pos (by rw [hc]), decide_eq_true ⟨hc, w, hw, hc⟩, Bool.or_true]
            rfl
          · rw [if_neg (fun hbytes => hc (Checksum.bytes_inj.mp hbytes).symm),
              decide_eq_false (fun hpin => hc hpin.1), Bool.or_false]
        · rw [hsaved]
          exact hb.elementsMemory
        · rw [hsaved]
          exact hb.sizeMemory
        · dsimp only
          rw [toNat_succ (by omega), helements, hmodules.length_eq, List.length_cons]
        · dsimp only
          rw [toNat_add_size (by omega), hbytes, total_perm hmodules, total_cons, Nat.add_comm]
        · exact hb.hitsPinned
        · exact hb.hitsMemory
        · exact hb.misses

/-- Every pinned checksum has saved code, and it was counted. -/
theorem Balanced.of_pinned (hb : Balanced past cache) (h : Countable past) {c : Checksum}
    (hpinned : cache.pinned.contains c.bytes = true) :
    ∃ w ∈ saved past, Checksum.ofCode w = c ∧ cache.codes.get? c.bytes = some w ∧
      1 ≤ cache.metrics.elementsPinned.toNat ∧ w.length ≤ cache.metrics.sizePinned.toNat := by
  rw [hb.pinned] at hpinned
  rcases saved_of_isPinned hpinned with ⟨w, hw, rfl⟩
  have hmodules := h.pinnedModules_unpin hw hpinned
  refine ⟨w, hw, rfl, hb.get?_of_mem h hw, ?_, ?_⟩
  · rw [hb.elementsPinned, hmodules.length_eq]
    exact Nat.succ_le_succ (Nat.zero_le _)
  · rw [hb.sizePinned, total_perm hmodules, total_cons]
    exact Nat.le_add_right _ _

/-- A pin that is taken away is counted off again. -/
theorem Balanced.unpin (hb : Balanced past cache) {c : Checksum}
    (h : Countable (.unpin c :: past)) : Balanced (.unpin c :: past) (cache.unpin c) := by
  have hsaved : saved (.unpin c :: past) = saved past := saved_cons_of_none rfl
  by_cases hpinned : cache.pinned.contains c.bytes = true
  · rcases hb.of_pinned h.earlier hpinned with ⟨w, hw, rfl, hget, -, -⟩
    -- The module heads the list of those counted so far: no subtraction stops at zero.
    have hmodules := h.earlier.pinnedModules_unpin hw (hb.pinned _ ▸ hpinned)
    -- What was counted for it is its length, which fits into a word.
    have hsize : w.size.toNat = w.length := by
      have hmem : total (pinnedModules past) ≤ total (saved past) := total_filter_le _ _
      have hbound := h.earlier.size
      rw [total_perm hmodules, total_cons] at hmem
      exact toNat_size (by omega)
    unfold ModuleCache.unpin
    rw [if_pos hpinned, hget]
    constructor
    · rw [hsaved]
      exact hb.codes
    · intro c'
      have hpinned' := hb.pinned c'
      rw [Table.contains] at hpinned'
      rw [isPinned, ← hpinned', Table.contains, Table.get?_erase]
      by_cases hc : Checksum.ofCode w = c'
      · rw [if_pos (by rw [hc]), decide_eq_false (not_not_intro hc), Bool.and_false]
        rfl
      · rw [if_neg (fun hbytes => hc (Checksum.bytes_inj.mp hbytes).symm), decide_eq_true hc,
          Bool.and_true]
    · rw [hsaved]
      exact hb.elementsMemory
    · rw [hsaved]
      exact hb.sizeMemory
    · dsimp only
      rw [Word.toNat_sub, hb.elementsPinned, hmodules.length_eq, List.length_cons]
      rfl
    · dsimp only
      rw [Word.toNat_sub, hb.sizePinned, total_perm hmodules, total_cons, hsize,
        Nat.add_sub_cancel_left]
    · exact hb.hitsPinned
    · exact hb.hitsMemory
    · exact hb.misses
  · have hsame : cache.unpin c = cache := if_neg hpinned
    rw [hsame]
    refine hb.unchanged hsaved ?_ (fun _ => rfl)
    intro c'
    rw [isPinned]
    by_cases hc : c = c'
    · have hfree : isPinned c' past = false := by
        rw [← hc, ← hb.pinned]
        exact eq_false_of_ne_true hpinned
      rw [hfree, Bool.false_and]
    · rw [decide_eq_true hc, Bool.and_true]

/-- Every row of requests keeps the agreement. -/
theorem balanced_after (h : Countable past) : Balanced past (after past) := by
  induction past with
  | nil => exact balanced_empty
  | cons q past ih =>
      -- The cache agreed with the books before the latest request.
      have hb := ih h.earlier
      cases q with
      | save code => exact hb.save h
      | load c => exact hb.load h
      | pin c => exact hb.pin h
      | unpin c => exact hb.unpin h
      | analyze c => exact hb.unchanged (saved_cons_of_none rfl) (fun _ => rfl) (fun _ => rfl)

end Requests

/-- After every row of requests a load returns the module that was saved with the checksum, or
    complains that there is none. What is pinned has been saved, and taking the pin away would
    subtract no more than was counted. The counters of modules and bytes are those of the
    different modules saved and of the pinned ones among them, and every load is counted once,
    at the place where its module was when it was made. -/
theorem after_accounts (past : List Request) (h : Countable past) :
    (∀ w, w ≠ [] → .save w ∈ past → ((after past).load (.ofCode w)).1 = .ok w) ∧
    (∀ c, (∀ w, w ≠ [] → .save w ∈ past → .ofCode w ≠ c) →
      ((after past).load c).1 = .error (missing c)) ∧
    (∀ c : Checksum, (after past).pinned.contains c.bytes = true →
      ∃ w ∈ saved past, .ofCode w = c ∧ (after past).codes.get? c.bytes = some w ∧
        1 ≤ (after past).metrics.elementsPinned.toNat ∧
        w.length ≤ (after past).metrics.sizePinned.toNat) ∧
    Balanced past (after past) ∧
    (after past).metrics.hitsPinned.toNat + (after past).metrics.hitsMemory.toNat +
      (after past).metrics.misses.toNat = past.countP Request.isLoad := by
  have hb := balanced_after h
  refine ⟨?_, ?_, ?_, hb, ?_⟩
  · intro w hw hmem
    have hget := hb.get?_of_mem h (mem_saved_iff.mpr ⟨hw, hmem⟩)
    unfold ModuleCache.load
    rw [hget]
  · intro c hunsaved
    have hget : (after past).codes.get? c.bytes = none := by
      apply hb.get?_eq_none
      intro w hw
      rcases mem_saved_iff.mp hw with ⟨hne, hmem⟩
      exact hunsaved w hne hmem
    unfold ModuleCache.load
    rw [hget]
  · intro c hpinned
    exact hb.of_pinned h hpinned
  · rw [hb.hitsPinned, hb.hitsMemory, hb.misses, loads_add]

/-- Two modules, of which the first is loaded before it is saved, after it is saved, and twice
    after it is pinned. -/
theorem after_accounts_of_pin :
    let a := Checksum.ofCode [1]
    let past : List Request :=
      [.unpin a, .load a, .load a, .pin a, .pin a, .load a, .save [2, 3], .save [1], .load a]
    Countable past ∧ Balanced past (after past) ∧ ((after past).load a).1 = .ok [1] ∧
      (after past).metrics = ⟨2, 1, 0, 1, 0, 2, 0, 3⟩ := by
  intro a past
  have h : Countable past := by
    constructor
    · decide +kernel
    · decide +kernel
    · decide +kernel
  have haccounts := after_accounts past h
  have hload := haccounts.1 [1] (by decide) (by decide +kernel)
  have hmetrics : (after past).metrics = ⟨2, 1, 0, 1, 0, 2, 0, 3⟩ := by decide +kernel
  exact ⟨h, haccounts.2.2.2.1, hload, hmetrics⟩

end ModuleCache

end ContractHost
