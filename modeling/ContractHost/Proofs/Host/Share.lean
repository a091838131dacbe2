import ContractHost.Proofs.Host.Cursors

/-!
# Shares of a World

What a call may reach of a world by storage requests is its share: the records of a memory
under a prefix, a meter and a frame of cursors. A step is local to a share if it does not
depend on anything else and does not change anything else. To be exact, there is a function
of what is to be seen of the share that gives both the outcome and the changes.

Local steps in a row are local, so a request is local as soon as its parts are. The prefix is
no obstacle to that: a seek looks at the keys next to the range, but what it makes of them
only depends on the records under the prefix.

Two shares are disjoint if neither prefix is a prefix of the other and the meters and the
frames differ. Then what one step changes the other does not see, and it does not matter
which of the two changes is made first. Memories and tables need not be told apart for that:
a table is determined by its look-ups.

## Main definitions

* `Share`, `Share.seen`: A part of a world, and what is to be seen there.
* `Share.Change`, `Share.change`, `Share.changes`: Changes of a share.
* `Share.Local`: A step that sees and changes a share only.
* `Share.Disjoint`: Two shares without anything in common.

## Theorems

* `Share.seen_changes`: What is to be seen after changes.
* `Share.Local.bind`, `Share.Local.reading`: Steps in a row.
* `Share.Local.outcome_eq`, `Share.Local.comm`: Steps that are local to disjoint shares.
-/

namespace ContractHost

/-- A part of a world: the records of a memory under a prefix, a meter and a frame. -/
structure Share where
  memory : MemoryId
  pre : Bytes
  meter : MeterId
  serial : Nat

namespace Share

/-- What is to be seen of a share. -/
structure View where
  records : Records
  meter : Meter
  frame : Frame

/-- One change of a share. A record is written, or removed if there is no value for it. -/
inductive Change
  | record (key : Bytes) (value : Option Bytes)
  | meter (m : Meter)
  | frame (f : Frame)

/-- What is to be seen of a share of a world. -/
def seen (s : Share) (w : World) : View :=
  ⟨(w.chain.memory s.memory).under s.pre, w.chain.meter s.meter, w.frames.getD s.serial []⟩

/-- What is to be seen after a change. -/
def View.change (v : View) : Change → View
  | .record key value => { v with records := v.records.put key value }
  | .meter m => { v with meter := m }
  | .frame f => { v with frame := f }

/-- The chain with a record of a memory replaced, by a value or by nothing. -/
def putRecord (c : Chain) (id : MemoryId) (key : Bytes) (value : Option Bytes) : Chain :=
  c.setMemory id ((c.memory id).put key value)

/-- The world after a change of a share. -/
def change (s : Share) (w : World) : Change → World
  | .record key value => { w with chain := putRecord w.chain s.memory (s.pre ++ key) value }
  | .meter m => { w with chain := w.chain.setMeter s.meter m }
  | .frame f => { w with frames := w.frames.set s.serial f }

/-- The world after changes in a row. -/
def changes (s : Share) (w : World) (cs : List Change) : World := cs.foldl s.change w

/-- Two shares without anything in common. -/
structure Disjoint (s t : Share) : Prop where
  pre : s.memory = t.memory → ¬ s.pre <+: t.pre ∧ ¬ t.pre <+: s.pre
  meter : s.meter ≠ t.meter
  serial : s.serial ≠ t.serial

variable {s t : Share}

theorem Disjoint.symm (h : s.Disjoint t) : t.Disjoint s where
  pre hmemory := (h.pre hmemory.symm).symm
  meter := h.meter.symm
  serial := h.serial.symm

/-- No key has two prefixes neither of which is a prefix of the other. -/
theorem Disjoint.key_ne (h : s.Disjoint t) (hmemory : s.memory = t.memory) (key key' : Bytes) :
    s.pre ++ key ≠ t.pre ++ key' := by
  intro heq
  have hs : s.pre <+: t.pre ++ key' := heq ▸ List.prefix_append s.pre key
  rcases List.prefix_or_prefix_of_prefix hs (List.prefix_append t.pre key') with hle | hle
  · exact (h.pre hmemory).1 hle
  · exact (h.pre hmemory).2 hle

/-! ## Changes -/

theorem memory_putRecord (c : Chain) (id id' : MemoryId) (key : Bytes) (value : Option Bytes) :
    (putRecord c id key value).memory id' =
      if id' = id then (c.memory id).put key value else c.memory id' :=
  Chain.memory_setMemory c id id' _

/-- Records under different keys, or of different memories, may be written in either order. -/
theorem putRecord_comm (c : Chain) {id id' : MemoryId} {key key' : Bytes}
    (h : id = id' → key ≠ key') (value value' : Option Bytes) :
    putRecord (putRecord c id key value) id' key' value' =
      putRecord (putRecord c id' key' value') id key value := by
  by_cases hid : id = id'
  · subst hid
    -- One memory is read back after each writing, and the two writings meet in one table.
    have hmemory : ∀ key value,
        (putRecord c id key value).memory id = (c.memory id).put key value :=
      fun key value => Chain.memory_setMemory_self c id _
    unfold putRecord at hmemory ⊢
    rw [hmemory, hmemory, Table.put_comm _ (h rfl)]
    unfold Chain.setMemory
    dsimp only
    rw [Table.set_set, Table.set_set]
  · -- Records of different memories are in different entries.
    have hmemory : (putRecord c id key value).memory id' = c.memory id' := by
      rw [memory_putRecord, if_neg (fun h => hid h.symm)]
    have hmemory' : (putRecord c id' key' value').memory id = c.memory id := by
      rw [memory_putRecord, if_neg hid]
    unfold putRecord at hmemory hmemory' ⊢
    rw [hmemory, hmemory']
    unfold Chain.setMemory
    dsimp only
    rw [Table.set_comm _ hid]

theorem under_put (t : Records) (pre key : Bytes) (value : Option Bytes) :
    Records.under (t.put (pre ++ key) value) pre = (t.under pre).put key value := by
  cases value with
  | none => exact Records.under_erase t pre key
  | some v => exact Records.under_set t pre key v

/-- A change of a share is seen in the share, as it has been made. -/
theorem seen_change (s : Share) (w : World) (c : Change) :
    s.seen (s.change w c) = (s.seen w).change c := by
  cases c with
  | record key value =>
      have hrecords :
          ((putRecord w.chain s.memory (s.pre ++ key) value).memory s.memory).under s.pre =
            ((w.chain.memory s.memory).under s.pre).put key value := by
        rw [memory_putRecord, if_pos rfl, under_put]
      unfold seen change View.change
      dsimp only
      rw [hrecords]
      rfl
  | meter m =>
      unfold seen change View.change
      dsimp only
      rw [Chain.meter_setMeter, if_pos rfl]
      rfl
  | frame f =>
      unfold seen change View.change
      dsimp only
      rw [Table.getD_set, if_pos rfl]

/-- Changes in a row are seen in the share in their order. -/
theorem seen_changes (s : Share) (w : World) (cs : List Change) :
    s.seen (s.changes w cs) = cs.foldl View.change (s.seen w) := by
  induction cs generalizing w with
  | nil => rfl
  | cons c cs ih =>
      change s.seen (s.changes (s.change w c) cs) = _
      rw [ih, seen_change]
      rfl

theorem changes_append (s : Share) (w : World) (cs cs' : List Change) :
    s.changes w (cs ++ cs') = s.changes (s.changes w cs) cs' := List.foldl_append

theorem registry_changes (s : Share) (w : World) (cs : List Change) :
    (s.changes w cs).registry = w.registry := by
  induction cs generalizing w with
  | nil => rfl
  | cons c cs ih =>
      refine (ih (s.change w c)).trans ?_
      cases c with
      | record key value => rfl
      | meter m => rfl
      | frame f => rfl

/-- What is changed in one share is not seen in the other. -/
theorem Disjoint.seen_change (h : s.Disjoint t) (w : World) (c : Change) :
    s.seen (t.change w c) = s.seen w := by
  cases c with
  | record key value =>
      have hrecords :
          ((putRecord w.chain t.memory (t.pre ++ key) value).memory s.memory).under s.pre =
            (w.chain.memory s.memory).under s.pre := by
        rw [memory_putRecord]
        -- In one memory the prefixes keep the keys apart, and different memories are apart anyway.
        by_cases hmemory : s.memory = t.memory
        · rw [if_pos hmemory]
          apply Table.ext_get?
          intro k
          rw [Records.get?_under, Records.get?_under, Table.get?_put,
            if_neg (h.key_ne hmemory k key), hmemory]
        · rw [if_neg hmemory]
      unfold seen change
      dsimp only
      rw [hrecords]
      rfl
  | meter m =>
      unfold seen change
      dsimp only
      rw [Chain.meter_setMeter, if_neg h.meter]
      rfl
  | frame f =>
      unfold seen change
      dsimp only
      rw [Table.getD_set, if_neg h.serial]

/-- Nor are changes in a row. -/
theorem Disjoint.seen_changes (h : s.Disjoint t) (w : World) (cs : List Change) :
    s.seen (t.changes w cs) = s.seen w := by
  induction cs generalizing w with
  | nil => rfl
  | cons c cs ih => exact (ih (t.change w c)).trans (h.seen_change w c)

/-- Changes of disjoint shares may change places. -/
theorem Disjoint.change_comm (h : s.Disjoint t) (w : World) (c c' : Change) :
    t.change (s.change w c) c' = s.change (t.change w c') c := by
  cases c with
  | record key value =>
      cases c' with
      | record key' value' =>
          -- Records are the one case with something to prove. The others are different fields, or
          -- different entries of one table.
          have hcomm :=
            putRecord_comm w.chain (fun hmemory => h.key_ne hmemory key key') value value'
          unfold change
          dsimp only
          rw [hcomm]
      | meter m' => rfl
      | frame f' => rfl
  | meter m =>
      cases c' with
      | record key' value' => rfl
      | meter m' =>
          unfold change Chain.setMeter
          dsimp only
          rw [Table.set_comm _ h.meter]
      | frame f' => rfl
  | frame f =>
      cases c' with
      | record key' value' => rfl
      | meter m' => rfl
      | frame f' =>
          unfold change
          dsimp only
          rw [Table.set_comm _ h.serial]

/-- Nor does it matter which of two rows of changes comes first. -/
theorem Disjoint.changes_comm (h : s.Disjoint t) (w : World) (cs cs' : List Change) :
    t.changes (s.changes w cs) cs' = s.changes (t.changes w cs') cs := by
  -- One change is carried past the others, and then the next.
  have hone : ∀ (w : World) (c : Change) (cs' : List Change),
      t.changes (s.change w c) cs' = s.change (t.changes w cs') c := by
    intro w c cs'
    induction cs' generalizing w with
    | nil => rfl
    | cons c' cs' ih =>
        change t.changes (t.change (s.change w c) c') cs' =
          s.change (t.changes (t.change w c') cs') c
        rw [h.change_comm, ih]
  induction cs generalizing w with
  | nil => rfl
  | cons c cs ih =>
      change t.changes (s.changes (s.change w c) cs) cs' =
        s.changes (s.change (t.changes w cs') c) cs
      rw [ih, hone]

/-! ## Local steps -/

/-- In worlds with a registry, what is to be seen of the share determines how the step ends
    and what it changes, which is in the share. -/
def Local (s : Share) (registry : Registry) {ρ : Type} (x : World → ρ × World) : Prop :=
  ∃ f : View → ρ × List Change, ∀ w, w.registry = registry →
    x w = ((f (s.seen w)).1, s.changes w (f (s.seen w)).2)

namespace Local

variable {registry : Registry} {ρ τ α β : Type}

/-- A step that goes on with the outcome of another, whatever it is. -/
theorem andThen {x : World → ρ × World} {g : ρ → World → τ × World} (hx : s.Local registry x)
    (hg : ∀ a, s.Local registry (g a)) : s.Local registry fun w => g (x w).1 (x w).2 := by
  rcases hx with ⟨f, hf⟩
  rcases Classical.skolem.mp hg with ⟨f', hf'⟩
  -- What the second step sees is what the first one's changes make of the view.
  refine ⟨fun v =>
    let first := f v
    let second := f' first.1 (first.2.foldl View.change v)
    (second.1, first.2 ++ second.2), fun w hw => ?_⟩
  dsimp only
  rw [hf w hw]
  dsimp only
  rw [hf' _ _ ((registry_changes s w _).trans hw), seen_changes, changes_append]

/-- A step that depends on what is to be seen of the share. -/
theorem reading {g : View → World → ρ × World} (hg : ∀ v, s.Local registry (g v)) :
    s.Local registry fun w => g (s.seen w) w := by
  have hseen : s.Local registry fun w => (s.seen w, w) := ⟨fun v => (v, []), fun _ _ => rfl⟩
  exact hseen.andThen hg

/-- An answer that does not depend on the world sees and changes nothing. -/
theorem answer (s : Share) (registry : Registry) (a : ρ) :
    s.Local registry fun w => (a, w) := ⟨fun _ => (a, []), fun _ _ => rfl⟩

theorem pure (s : Share) (registry : Registry) (a : α) :
    s.Local registry (Pure.pure a : World.Attempt α) := answer s registry _

theorem throw (s : Share) (registry : Registry) (e : HostError) :
    s.Local registry (MonadExcept.throw e : World.Attempt α) := answer s registry _

/-- Attempts in a row that are local make one that is local. -/
theorem bind {x : World.Attempt α} {g : α → World.Attempt β} (hx : s.Local registry x)
    (hg : ∀ a, s.Local registry (g a)) : s.Local registry (x >>= g : World.Attempt β) := by
  -- Only an answer lets the second attempt begin.
  have hthen := hx.andThen (g := fun
    | .ok (.ok a) => g a
    | .ok (.error e) => fun w => (.ok (.error e), w)
    | .error p => fun w => (.error p, w)) (fun r => by
      rcases r with p | e | a
      · exact answer s registry _
      · exact answer s registry _
      · exact hg a)
  rcases hthen with ⟨f, hf⟩
  refine ⟨f, fun w hw => ?_⟩
  rw [← hf w hw, Attempt.bind_apply]
  dsimp only
  rcases x w with ⟨p | e | a, w'⟩
  · rfl
  · rfl
  · rfl

/-- What is made of the answer of a local attempt is local. -/
theorem map (f : α → β) {x : World.Attempt α} (hx : s.Local registry x) :
    s.Local registry (f <$> x : World.Attempt β) :=
  hx.bind (fun a => pure s registry (f a))

/-! ## Steps of disjoint shares -/

variable {x : World → ρ × World} {y : World → τ × World} {w : World}

/-- What is done in one share makes no difference to a step in the other. -/
theorem outcome_eq (h : s.Disjoint t) (hx : s.Local registry x) (hy : t.Local registry y)
    (hw : w.registry = registry) : (x (y w).2).1 = (x w).1 := by
  rcases hx with ⟨f, hf⟩
  rcases hy with ⟨f', hf'⟩
  rw [hf' w hw]
  dsimp only
  rw [hf w hw, hf _ ((registry_changes t w _).trans hw), h.seen_changes]

/-- It makes no difference either which of the two comes first. -/
theorem comm (h : s.Disjoint t) (hx : s.Local registry x) (hy : t.Local registry y)
    (hw : w.registry = registry) : (x (y w).2).2 = (y (x w).2).2 := by
  rcases hx with ⟨f, hf⟩
  rcases hy with ⟨f', hf'⟩
  -- Each step sees the same as alone, so it makes the same changes, and these may change places.
  rw [hf w hw, hf' w hw]
  dsimp only
  rw [hf _ ((registry_changes t w _).trans hw), hf' _ ((registry_changes s w _).trans hw),
    h.seen_changes, h.symm.seen_changes, h.changes_comm]

/-- A local step leaves the registry alone. -/
theorem registry_eq (hx : s.Local registry x) (hw : w.registry = registry) :
    (x w).2.registry = registry := by
  rcases hx with ⟨f, hf⟩
  rw [hf w hw]
  exact (registry_changes s w _).trans hw

end Local

end Share

end ContractHost
