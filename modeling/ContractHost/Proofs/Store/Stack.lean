import ContractHost.Proofs.Effect
import ContractHost.Proofs.Store.Under
import ContractHost.Store.Basic

/-!
# Stacks of Scopes

A scope of a scope of a memory, to any depth, shows the records of the memory under all the
prefixes put together. To say so is to compare it with a memory that holds just those
records: every request to the stack is answered in the same way, refusals included, and what
the stack writes is what the other memory writes, under the prefixes.

`Store.Shows` lists what the requests to a store come to when the store shows the records of
a memory under a prefix. A memory shows all of its records, and a scope adds its own prefix
behind, so the stack is an induction. Sequences of requests are another, along which the
view of the one memory stays equal to the contents of the other.

## Main definitions

* `Store.Request`, `Store.Answer`, `Store.serve`, `Store.answers`: Requests in a row.
* `Store.Shows`: The store shows the records of a memory under a prefix.

## Theorems

* `Store.shows_memory`, `Store.Shows.scope`, `Store.shows_stack`: What stacks show.
* `Store.stack_answers`: A stack answers like a memory with the records it shows.
-/

namespace ContractHost

namespace Chain

theorem memory_setMemory (c : Chain) (id id' : MemoryId) (t : Records) :
    (c.setMemory id t).memory id' = if id' = id then t else c.memory id' :=
  Table.getD_set c.memories id id' t .empty

theorem memory_setMemory_self (c : Chain) (id : MemoryId) (t : Records) :
    (c.setMemory id t).memory id = t := by
  rw [memory_setMemory, if_pos rfl]

end Chain

namespace Store

/-! ## Requests in a row -/

/-- What a store may be asked for. -/
inductive Request
  | get (key : Bytes)
  | set (key value : Bytes)
  | delete (key : Bytes)
  | range (r : Range) (order : Order)
  | seek (r : Range) (order : Order)

/-- What a store hands back. -/
inductive Answer
  | value (found : Option Bytes)
  | done
  | records (found : List Record)
  | record (found : Option Record)
deriving DecidableEq

/-- Serves a request. -/
def serve (s : Store) : Request → Attempt Answer
  | .get key => do return .value (← s.get key)
  | .set key value => do
    s.set key value
    return .done
  | .delete key => do
    s.delete key
    return .done
  | .range r order => do return .records (← s.range r order)
  | .seek r order => do return .record (← s.seek r order)

/-- The answers to requests in a row, refusals and panics included, and the chain after
    them. -/
def answers (s : Store) :
    List Request → Chain → List (Except Panic (Except StoreError Answer)) × Chain
  | [], c => ([], c)
  | q :: qs, c =>
    let r := s.serve q c
    let rest := s.answers qs r.2
    (r.1 :: rest.1, rest.2)

/-! ## What a store shows -/

/-- The store shows the records of a memory under a prefix. -/
structure Shows (s : Store) (id : MemoryId) (pre : Bytes) : Prop where
  get : ∀ key c, s.get key c = (.ok (.ok (((c.memory id).under pre).get? key)), c)
  set : ∀ key value c,
    s.set key value c = (.ok (.ok ()), c.setMemory id ((c.memory id).set (pre ++ key) value))
  delete : ∀ key c,
    s.delete key c = (.ok (.ok ()), c.setMemory id ((c.memory id).erase (pre ++ key)))
  range : ∀ r order c, s.range r order c = (.ok (((c.memory id).under pre).range r order), c)
  seek : ∀ r order c, s.seek r order c = (.ok (((c.memory id).under pre).seek r order), c)

theorem shows_memory (id : MemoryId) : (memory id).Shows id [] where
  get key c := by
    rw [Records.under_nil]
    rfl
  set _ _ _ := rfl
  delete _ _ := rfl
  range r order c := by
    rw [Records.under_nil]
    rfl
  seek r order c := by
    rw [Records.under_nil]
    rfl

/-- A scope puts its prefix behind the one that its store shows records under. -/
theorem Shows.scope {s : Store} {id : MemoryId} {pre : Bytes} (h : s.Shows id pre)
    (pre' : Bytes) : (scope pre' s).Shows id (pre ++ pre') where
  get key c := by
    rw [Store.get, h.get, Records.get?_under, Records.get?_under, List.append_assoc]
  set key value c := by
    rw [Store.set, h.set, List.append_assoc]
  delete key c := by
    rw [Store.delete, h.delete, List.append_assoc]
  -- A range is checked as it is given, and only then translated.
  range r order c := by
    rw [Store.range, ← Records.under_under, Records.range_under, Attempt.bind_apply,
      Attempt.ofExcept_apply]
    cases r.check with
    | error e => rfl
    | ok checked =>
        dsimp only
        rw [Attempt.bind_apply, h.range]
        cases ((c.memory id).under pre).range (Scope.outer pre' r) order with
        | error e => rfl
        | ok found => rfl
  seek r order c := by
    rw [Store.seek, ← Records.under_under, Records.seek_under, Attempt.bind_apply,
      Attempt.ofExcept_apply]
    cases r.check with
    | error e => rfl
    | ok checked =>
        dsimp only
        rw [Attempt.bind_apply, h.seek]
        cases ((c.memory id).under pre).seek (Scope.outer pre' r) order with
        | error e => rfl
        | ok found => rfl

/-- A stack shows the records behind the prefixes of all its scopes, put one behind the other. -/
theorem Shows.stack {s : Store} {id : MemoryId} {pre : Bytes} (h : s.Shows id pre)
    (prefixes : List Bytes) : (Store.stack prefixes s).Shows id (pre ++ prefixes.flatten) := by
  induction prefixes generalizing s pre with
  | nil =>
      rw [List.flatten_nil, List.append_nil]
      exact h
  -- The first prefix is the outermost, so the rest of the list is put behind it.
  | cons pre' prefixes ih =>
      rw [List.flatten_cons, ← List.append_assoc]
      exact ih (h.scope pre')

/-- The scopes of a stack do not change the memory that it reaches. -/
theorem base_stack (prefixes : List Bytes) (s : Store) : (stack prefixes s).base = s.base := by
  induction prefixes generalizing s with
  | nil => rfl
  | cons pre prefixes ih => exact ih (scope pre s)

theorem shows_stack (prefixes : List Bytes) (id : MemoryId) :
    (stack prefixes (memory id)).Shows id prefixes.flatten :=
  (shows_memory id).stack prefixes

/-- The storage of a contract shows the records behind the prefix of its address. -/
theorem shows_ofContract (address : String) :
    (ofContract address).Shows Chain.contractMemory (contractPrefix address) :=
  (shows_memory Chain.contractMemory).scope (contractPrefix address)

/-! ## What requests change -/

/-- Nothing changes but records of a memory under a prefix. -/
structure ChangesUnder (id : MemoryId) (pre : Bytes) (c c' : Chain) : Prop where
  outside : ∀ key, ¬ pre <+: key → (c'.memory id).get? key = (c.memory id).get? key
  others : ∀ id', id' ≠ id → c'.memory id' = c.memory id'

theorem steady_changesUnder (id : MemoryId) (pre : Bytes) : Steady (ChangesUnder id pre) where
  refl _ := ⟨fun _ _ => rfl, fun _ _ => rfl⟩
  trans h h' :=
    ⟨fun key hkey => (h'.outside key hkey).trans (h.outside key hkey),
      fun id' hid => (h'.others id' hid).trans (h.others id' hid)⟩

theorem changesUnder_set (id : MemoryId) (pre key value : Bytes) (c : Chain) :
    ChangesUnder id pre c (c.setMemory id ((c.memory id).set (pre ++ key) value)) where
  outside k hk := by
    rw [Chain.memory_setMemory_self, Table.get?_set, if_neg]
    intro heq
    exact hk (heq ▸ List.prefix_append pre key)
  others id' hid := by rw [Chain.memory_setMemory, if_neg hid]

theorem changesUnder_erase (id : MemoryId) (pre key : Bytes) (c : Chain) :
    ChangesUnder id pre c (c.setMemory id ((c.memory id).erase (pre ++ key))) where
  outside k hk := by
    rw [Chain.memory_setMemory_self, Table.get?_erase, if_neg]
    intro heq
    exact hk (heq ▸ List.prefix_append pre key)
  others id' hid := by rw [Chain.memory_setMemory, if_neg hid]

/-- A request changes records of what the store shows, or nothing. -/
theorem Shows.serve_within {s : Store} {id : MemoryId} {pre : Bytes} (h : s.Shows id pre)
    (q : Request) : (s.serve q).Within (ChangesUnder id pre) := by
  have hsteady := steady_changesUnder id pre
  cases q with
  | get key =>
      refine .bind hsteady (fun c => ?_) (fun _ => .pure hsteady _)
      rw [h.get]
      exact hsteady.refl c
  | set key value =>
      refine .bind hsteady (fun c => ?_) (fun _ => .pure hsteady _)
      rw [h.set]
      exact changesUnder_set id pre key value c
  | delete key =>
      refine .bind hsteady (fun c => ?_) (fun _ => .pure hsteady _)
      rw [h.delete]
      exact changesUnder_erase id pre key c
  | range r order =>
      refine .bind hsteady (fun c => ?_) (fun _ => .pure hsteady _)
      rw [h.range]
      exact hsteady.refl c
  | seek r order =>
      refine .bind hsteady (fun c => ?_) (fun _ => .pure hsteady _)
      rw [h.seek]
      exact hsteady.refl c

/-- Two stores that show the same records answer a request in the same way and show the
    same records afterwards. -/
theorem Shows.serve_eq {s s' : Store} {id id' : MemoryId} {pre pre' : Bytes}
    (h : s.Shows id pre) (h' : s'.Shows id' pre') {c c' : Chain}
    (hview : (c.memory id).under pre = (c'.memory id').under pre') (q : Request) :
    (s.serve q c).1 = (s'.serve q c').1 ∧
      ((s.serve q c).2.memory id).under pre = ((s'.serve q c').2.memory id').under pre' := by
  cases q with
  | get key =>
      rw [serve, serve, Attempt.bind_apply, Attempt.bind_apply, h.get, h'.get, hview]
      exact ⟨rfl, hview⟩
  | set key value =>
      rw [serve, serve, Attempt.bind_apply, Attempt.bind_apply, h.set, h'.set]
      refine ⟨rfl, ?_⟩
      -- What is written behind the prefix shows as what is written to the records under it.
      change ((c.setMemory id _).memory id).under pre = ((c'.setMemory id' _).memory id').under pre'
      rw [Chain.memory_setMemory_self, Chain.memory_setMemory_self, Records.under_set,
        Records.under_set, hview]
  | delete key =>
      rw [serve, serve, Attempt.bind_apply, Attempt.bind_apply, h.delete, h'.delete]
      refine ⟨rfl, ?_⟩
      change ((c.setMemory id _).memory id).under pre = ((c'.setMemory id' _).memory id').under pre'
      rw [Chain.memory_setMemory_self, Chain.memory_setMemory_self, Records.under_erase,
        Records.under_erase, hview]
  | range r order =>
      rw [serve, serve, Attempt.bind_apply, Attempt.bind_apply, h.range, h'.range, hview]
      cases ((c'.memory id').under pre').range r order with
      | error e => exact ⟨rfl, hview⟩
      | ok found => exact ⟨rfl, hview⟩
  | seek r order =>
      rw [serve, serve, Attempt.bind_apply, Attempt.bind_apply, h.seek, h'.seek, hview]
      cases ((c'.memory id').under pre').seek r order with
      | error e => exact ⟨rfl, hview⟩
      | ok found => exact ⟨rfl, hview⟩

/-- So do requests in a row. -/
theorem Shows.answers_within {s : Store} {id : MemoryId} {pre : Bytes} (h : s.Shows id pre)
    (qs : List Request) (c : Chain) : ChangesUnder id pre c (s.answers qs c).2 := by
  induction qs generalizing c with
  | nil => exact (steady_changesUnder id pre).refl c
  | cons q qs ih => exact (steady_changesUnder id pre).trans (h.serve_within q c) (ih _)

/-- Two stores that show the same records answer requests in a row in the same way. -/
theorem Shows.answers_eq {s s' : Store} {id id' : MemoryId} {pre pre' : Bytes}
    (h : s.Shows id pre) (h' : s'.Shows id' pre') {c c' : Chain}
    (hview : (c.memory id).under pre = (c'.memory id').under pre') (qs : List Request) :
    (s.answers qs c).1 = (s'.answers qs c').1 ∧
      ((s.answers qs c).2.memory id).under pre = ((s'.answers qs c').2.memory id').under pre' := by
  induction qs generalizing c c' with
  | nil => exact ⟨rfl, hview⟩
  | cons q qs ih =>
      rcases h.serve_eq h' hview q with ⟨hanswer, hview'⟩
      rcases ih hview' with ⟨hanswers, hlast⟩
      refine ⟨?_, hlast⟩
      rw [answers, answers]
      dsimp only
      rw [hanswer, hanswers]

/-- A stack of scopes answers every sequence of requests like a memory with the records
    under all of its prefixes, refusals included. What it leaves under the prefixes is what
    the other memory is left with, and nothing else has changed. -/
theorem stack_answers (prefixes : List Bytes) (id : MemoryId) (qs : List Request) (c : Chain) :
    (∀ key, ((c.memory id).under prefixes.flatten).get? key =
        (c.memory id).get? (prefixes.flatten ++ key)) ∧
      ((stack prefixes (memory id)).answers qs c).1 =
        ((memory id).answers qs (c.setMemory id ((c.memory id).under prefixes.flatten))).1 ∧
      (((stack prefixes (memory id)).answers qs c).2.memory id).under prefixes.flatten =
        ((memory id).answers qs
          (c.setMemory id ((c.memory id).under prefixes.flatten))).2.memory id ∧
      (∀ key, ¬ prefixes.flatten <+: key →
        (((stack prefixes (memory id)).answers qs c).2.memory id).get? key =
          (c.memory id).get? key) ∧
      ∀ id', id' ≠ id →
        ((stack prefixes (memory id)).answers qs c).2.memory id' = c.memory id' := by
  -- The other memory shows all that it holds, which is what the stack shows of the first.
  have hview : (c.memory id).under prefixes.flatten =
      ((c.setMemory id ((c.memory id).under prefixes.flatten)).memory id).under [] := by
    rw [Records.under_nil, Chain.memory_setMemory_self]
  rcases (shows_stack prefixes id).answers_eq (shows_memory id) hview qs with ⟨hanswers, hlast⟩
  rw [Records.under_nil] at hlast
  have hchanged := (shows_stack prefixes id).answers_within qs c
  exact ⟨Records.get?_under _ _, hanswers, hlast, hchanged.outside, hchanged.others⟩

end Store

end ContractHost
