import ContractHost.Proofs.Document.Wire
import ContractHost.Script.Op

/-!
# Scripts Read Back

A nested call is handed its script in a message of its own, which is written from what has been
read. So a script is read, written and read again at every level of calls, and the second message
is not the first one: members that were left out are there now, and lists of members have become
records. It is read back all the same, because in writing nothing gets deeper. A member that was
left out is written in fewer levels than the operation takes anyway, and the script of a call
lies three levels below the call in whatever form the call is given.

How deep a script may be nested is limited, and what has been read once is within the limit. Each
level of calls takes three levels of it, so a script that fits into few levels has only so many
levels of calls.

## Main definitions

* `Op.Fits`, `Script.Fits`: What can be written in so many levels.
* `Script.Inside`: The script of a call in another script, at any depth.

## Theorems

* `Op.Fits.readsBack`: An operation that fits is read back.
* `Op.fits_of_reader`: Whatever is read fits.
* `Script.decode?_encode`: A script that fits is read back from its message.
* `Script.decode?_inside`: So are all scripts inside one that has been read.
-/

namespace ContractHost

open Reader

namespace Op

/-- The operation runs no other script. -/
def IsLeaf : Op → Prop
  | call _ _ _ _ => False
  | _ => True

/-- The operation can be written in so many levels. Every operation takes two, and a call takes
    three more than its script does, which is what coins take as well. -/
inductive Fits : (levels : Nat) → Op → Prop
  | leaf {d : Nat} {op : Op} : op.IsLeaf → 2 ≤ d → Fits d op
  | call {d : Nat} {contract : String} {delegate : Bool} {funds : List Coin} {ops : List Op} :
      (funds = [] ∨ 1 ≤ d) → (∀ op ∈ ops, Fits d op) →
        Fits (d + 3) (Op.call contract delegate funds ops)

/-- No operation takes less than two levels. -/
theorem Fits.two_le {d : Nat} {op : Op} (h : op.Fits d) : 2 ≤ d := by
  cases h with
  | leaf _ hd => exact hd
  | call _ _ => omega

/-- Only a call with three levels above those of its script fits. -/
theorem Fits.of_call {d : Nat} {contract : String} {delegate : Bool} {funds : List Coin}
    {ops : List Op} (h : (Op.call contract delegate funds ops).Fits d) :
    ∃ d', d = d' + 3 ∧ ∀ op ∈ ops, op.Fits d' := by
  cases h with
  | leaf hleaf _ => exact hleaf.elim
  | call _ hops => exact ⟨_, rfl, hops⟩

/-- What fits into some levels fits into more. -/
theorem Fits.mono {d d' : Nat} {op : Op} (h : op.Fits d) (hd : d ≤ d') : op.Fits d' := by
  induction h generalizing d' with
  | leaf hleaf htwo => exact .leaf hleaf (Nat.le_trans htwo hd)
  | call hfunds _ ih =>
      obtain ⟨e, rfl⟩ := Nat.exists_eq_add_of_le' (Nat.le_trans (Nat.le_add_left 3 _) hd)
      refine .call ?_ fun op hop => ih op hop (by omega)
      rcases hfunds with hfunds | hfunds
      · exact .inl hfunds
      · exact .inr (by omega)

/-! ## Operations written and read -/

theorem reader_choice {name : String} (h : name ≠ "call") (d : Nat) (content : Node) :
    reader (d + 1) (.object [(name, content)]) = leafReader name d content := by
  -- The equation for names other than that of a call, whose case has to be excluded.
  change reader (d + 1) (.record [(some name, content)]) = _
  rw [reader]
  intro d' _ hname
  exact h hname

/-- A call from its members. -/
theorem reader_call (d : Nat) (content : Node) :
    reader (d + 3) (.object [("call", content)]) =
      (fields ["contract", "delegate", "funds", "ops"] (d + 2) content).bind fun f =>
        (f.get? "contract" text).bind fun contract =>
          (f.getD "delegate" false bool).bind fun delegate =>
            (f.getD "funds" [] Coin.listReader).bind fun funds =>
              match f.found.lookup "ops" with
              | some (.list items) =>
                (items.mapM (reader d)).bind fun ops => some (call contract delegate funds ops)
              | _ => none := by
  change reader (d + 3) (.record [(some "call", content)]) = _
  rw [reader]
  rfl

theorem within_choiceNode {name : String} {members : List (String × Node)} {d : Nat}
    (h : ∀ m ∈ members, m.2.Within d) : (choiceNode name members).Within (d + 2) := by
  apply Node.within_object
  intro m hm
  rw [List.mem_singleton.mp hm]
  exact Node.within_object h

/-- An operation other than a call is read back if its members are. -/
theorem choice_readsBack {name : String} {members : List (String × Node)} {op : Op} {d : Nat}
    (hname : name ≠ "call") (hread : leafReader name (d + 1) (.object members) = some op)
    (hwithin : ∀ m ∈ members, m.2.Within d) :
    reader (d + 2) (choiceNode name members) = some op ∧
      (choiceNode name members).Within (d + 2) := by
  refine ⟨?_, within_choiceNode hwithin⟩
  rw [choiceNode, reader_choice hname]
  exact hread

theorem leaf_readsBack {op : Op} (h : op.IsLeaf) : ReadsBack reader toNode 2 op := by
  intro d hd
  obtain ⟨d, rfl⟩ := Nat.exists_eq_add_of_le' hd
  cases op with
  | set key value => exact choice_readsBack (by decide) rfl (by simp [Node.within_text])
  | get key => exact choice_readsBack (by decide) rfl (by simp [Node.within_text])
  | delete key => exact choice_readsBack (by decide) rfl (by simp [Node.within_text])
  -- Members that may be missing are written as null and read as missing.
  | scan start stop descending =>
      have hbound (o : Option String) :=
        readsBack_optionOf (o := o) (fun s _ => readsBack_text s) (by simp) d (Nat.zero_le d)
      refine choice_readsBack (by decide) ?_ ?_
      · simp [leafReader, fields_object, Fields.getD, List.lookup_cons, Reader.bool, hbound]
      · simp [Node.within_bool, hbound]
  | call contract delegate funds ops => exact h.elim
  | query request gasLimit =>
      have hword : word d (.word gasLimit) = some gasLimit :=
        (readsBack_word gasLimit d (Nat.zero_le d)).1
      refine choice_readsBack (by decide) ?_ ?_
      · simp [leafReader, fields_object, Fields.get?, List.lookup_cons, Reader.text, hword]
      · simp [Node.within_text, Node.word, Node.within_integer]
  | canonicalize address => exact choice_readsBack (by decide) rfl (by simp [Node.within_text])
  | fail message => exact choice_readsBack (by decide) rfl (by simp [Node.within_text])
  | panic message => exact choice_readsBack (by decide) rfl (by simp [Node.within_text])

theorem nodes_eq_map (ops : List Op) : nodes ops = ops.map toNode := by
  induction ops with
  | nil => rfl
  | cons op ops ih => rw [nodes, ih, List.map_cons]

theorem funds_readsBack {funds : List Coin} {d : Nat} (h : funds = [] ∨ 1 ≤ d) :
    ReadsBack Coin.listReader Coin.listNode (d + 1) funds := by
  rcases h with rfl | hd
  · exact readsBack_listOf (fun c hc => absurd hc List.not_mem_nil)
  · exact (Coin.list_readsBack funds).mono (by omega)

/-- What fits is written in the levels it fits into, and read back from there. -/
theorem Fits.readsBack {d : Nat} {op : Op} (h : op.Fits d) : ReadsBack reader toNode d op := by
  -- The induction goes down the calls, so the script of a call is read back already.
  induction h with
  | leaf hleaf hd => exact (leaf_readsBack hleaf).mono hd
  | @call d contract delegate funds ops hfunds _ ih =>
      intro e he
      obtain ⟨e, rfl⟩ := Nat.exists_eq_add_of_le' (Nat.le_trans (Nat.le_add_left 3 d) he)
      -- The call and its members take two levels, and the lists of coins and operations a third.
      rcases funds_readsBack hfunds (e + 1) (by omega) with ⟨hcoins, hcoins'⟩
      rcases readsBack_listOf ih (e + 1) (by omega) with ⟨hscript, hscript'⟩
      have hops : (ops.map toNode).mapM (reader e) = some ops := hscript
      refine ⟨?_, ?_⟩
      · rw [toNode, choiceNode, reader_call, nodes_eq_map]
        simp [fields_object, Fields.get?, Fields.getD, List.lookup_cons, Reader.text, Reader.bool,
          hcoins, hops]
      · rw [toNode, nodes_eq_map]
        exact within_choiceNode (by simp [Node.within_text, Node.within_bool, hcoins', hscript'])

/-! ## Operations that have been read -/

section

variable {α : Type} {d : Nat} {n : Node} {op : Op}

theorem leaf_of_some {op' : Op} (hleaf : op'.IsLeaf) (op : Op) (h : some op' = some op) :
    op.IsLeaf := by
  cases h
  exact hleaf

/-- Reading a member first does not make it a call. -/
theorem leaf_of_bind {o : Option α} {next : α → Option Op}
    (hnext : ∀ a op, next a = some op → op.IsLeaf) (op : Op) (h : o.bind next = some op) :
    op.IsLeaf := by
  rcases Option.bind_eq_some_iff.mp h with ⟨a, -, ha⟩
  exact hnext a op ha

theorem leaf_of_fields {names : List String} {next : Fields → Option Op}
    (hnext : ∀ f op, next f = some op → op.IsLeaf) (h : (fields names d n).bind next = some op) :
    op.IsLeaf ∧ 1 ≤ d := by
  rcases Option.bind_eq_some_iff.mp h with ⟨f, hf, hop⟩
  refine ⟨hnext f op hop, ?_⟩
  rw [(fields_cases hf).1]
  exact Nat.le_add_left 1 f.depth

/-- What is read as an operation other than a call is one, and its members have been read. -/
theorem leaf_of_leafReader {name : String} (h : leafReader name d n = some op) :
    op.IsLeaf ∧ 1 ≤ d := by
  unfold leafReader at h
  simp only [Option.bind_eq_bind] at h
  -- One case a name; the last one is that of an unknown name.
  split at h
  · exact leaf_of_fields (fun _ => leaf_of_bind fun _ => leaf_of_bind fun _ =>
      leaf_of_some (by trivial)) h
  split at h
  · exact leaf_of_fields (fun _ => leaf_of_bind fun _ => leaf_of_some (by trivial)) h
  split at h
  · exact leaf_of_fields (fun _ => leaf_of_bind fun _ => leaf_of_some (by trivial)) h
  split at h
  · exact leaf_of_fields (fun _ => leaf_of_bind fun _ => leaf_of_bind fun _ =>
      leaf_of_bind fun _ => leaf_of_some (by trivial)) h
  split at h
  · exact leaf_of_fields (fun _ => leaf_of_bind fun _ => leaf_of_bind fun _ =>
      leaf_of_some (by trivial)) h
  split at h
  · exact leaf_of_fields (fun _ => leaf_of_bind fun _ => leaf_of_some (by trivial)) h
  split at h
  · exact leaf_of_fields (fun _ => leaf_of_bind fun _ => leaf_of_some (by trivial)) h
  split at h
  · exact leaf_of_fields (fun _ => leaf_of_bind fun _ => leaf_of_some (by trivial)) h
  · cases h

end

/-- Coins that have been read are none, or a level has been left for them. -/
theorem funds_of_reader {f : Fields} {funds : List Coin} {d : Nat} (hf : f.depth = d + 1)
    (h : f.getD "funds" [] Coin.listReader = some funds) : funds = [] ∨ 1 ≤ d := by
  unfold Fields.getD at h
  split at h
  · cases h
    exact .inl rfl
  · rw [hf] at h
    cases funds with
    | nil => exact .inl rfl
    | cons coin funds =>
        right
        -- The first coin is a record, and to enter that takes the level.
        unfold Coin.listReader listOf at h
        split at h
        · next d' items heq =>
          rcases mem_of_mapM h coin List.mem_cons_self with ⟨n, -, hcoin⟩
          rcases Option.bind_eq_some_iff.mp hcoin with ⟨g, hg, -⟩
          have hlevel := (fields_cases hg).1
          omega
        · cases h

/-- Whatever is read fits into the levels that have been left for it. -/
theorem fits_of_reader {d : Nat} {n : Node} {op : Op} (h : reader d n = some op) :
    op.Fits d := by
  -- A call leaves three levels less for its script, so the induction is on all fewer levels.
  induction d using Nat.strongRecOn generalizing n op with
  | ind d ih =>
      unfold reader at h
      split at h
      · next d content =>
        simp only [Option.bind_eq_bind, Option.bind_eq_some_iff] at h
        rcases h with ⟨f, hf, contract, -, delegate, -, funds, hfunds, h⟩
        split at h
        · rcases Option.bind_eq_some_iff.mp h with ⟨ops, hops, h⟩
          cases h
          -- The name of the call, its members and the list of the script take a level each.
          have hdepth := (fields_cases hf).1
          refine .call (funds_of_reader (by omega) hfunds) ?_
          intro op hop
          rcases mem_of_mapM hops op hop with ⟨item, -, hitem⟩
          exact ih d (by omega) hitem
        · cases h
      · rcases leaf_of_leafReader h with ⟨hleaf, hlevel⟩
        exact .leaf hleaf (by omega)
      · cases h

end Op

/-! ## Scripts -/

namespace Script

/-- The script fits into so many levels, below the list that it is. -/
def Fits (d : Nat) (ops : List Op) : Prop := ∀ op ∈ ops, op.Fits d

/-- Whatever has been read from a message fits. -/
theorem fits_of_decode? {msg : Bytes} {ops : List Op} (h : decode? msg = some ops) :
    Fits (nestingLimit - 1) ops := by
  rcases Option.bind_eq_some_iff.mp h with ⟨n, -, hops⟩
  cases n with
  | list items =>
      intro op hop
      rcases mem_of_mapM hops op hop with ⟨item, -, hitem⟩
      exact Op.fits_of_reader hitem
  | _ => cases hops

/-- A script that fits is read back from the message that is written for it. -/
theorem decode?_encode {ops : List Op} (h : Fits (nestingLimit - 1) ops) :
    decode? (encode ops) = some ops := by
  have hback : ReadsBack (listOf Op.reader) (fun ops => .list (ops.map Op.toNode)) nestingLimit
      ops := readsBack_listOf fun op hop => (h op hop).readsBack
  rcases hback nestingLimit (Nat.le_refl _) with ⟨hread, hwithin⟩
  unfold decode? encode
  rw [Op.nodes_eq_map, Json.read?_write hwithin, Option.bind_some]
  exact hread

/-- The script of a call in another script, at any depth. -/
inductive Inside (inner : List Op) : List Op → Prop
  | here {contract : String} {delegate : Bool} {funds : List Coin} {ops : List Op} :
      Op.call contract delegate funds inner ∈ ops → Inside inner ops
  | deeper {contract : String} {delegate : Bool} {funds : List Coin} {ops between : List Op} :
      Op.call contract delegate funds between ∈ ops → Inside inner between → Inside inner ops

/-- A script that is inside another fits wherever the other does. -/
theorem Inside.fits {inner ops : List Op} (hinside : Inside inner ops) {d : Nat}
    (h : Fits d ops) : Fits d inner := by
  induction hinside generalizing d with
  | here hcall =>
      rcases (h _ hcall).of_call with ⟨d', rfl, hinner⟩
      exact fun op hop => (hinner op hop).mono (by omega)
  -- The script in between lies three levels lower, and the inner one lower still.
  | deeper hcall _ ih =>
      rcases (h _ hcall).of_call with ⟨d', rfl, hbetween⟩
      exact fun op hop => (ih hbetween op hop).mono (by omega)

/-- All scripts inside one that has been read are read back from messages of their own. -/
theorem decode?_inside {msg : Bytes} {ops inner : List Op} (h : decode? msg = some ops)
    (hinside : Inside inner ops) : decode? (encode inner) = some inner :=
  decode?_encode (hinside.fits (fits_of_decode? h))

end Script

end ContractHost
