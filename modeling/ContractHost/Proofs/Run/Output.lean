import ContractHost.Proofs.Run.Moments
import ContractHost.Proofs.Script.Op

/-!
# Outputs Read Back

The output of a nested run is a message as well. It is written by the engine of the callee and
read by the one of the caller, which takes the tree that it holds for a part of its own output.
So an output gets a level deeper with every level of calls that it comes up, and it must not get
so deep that it is refused.

It does not, because a script is nested more deeply than its output. Every operation outputs a
tree that takes no more levels than the operation itself, and a call takes three levels more than
its script where the output takes one. So whatever an engine writes for a script that has been
read, the caller reads.

## Main definitions

* `Script.Outputs`: An outcome with an output that can be written in so many levels.
* `Engine.Writes`: An engine whose outputs are as deep as the scripts at most.

## Theorems

* `Script.nestedOutput_write`: An output that is not too deep is read back.
* `Script.perform_outputs`: What an operation outputs.
* `Script.engineAt_writes`: What a run outputs, at every level.
* `Script.Moment.nested_outputs`: The output of a nested run is read by its caller.
-/

namespace ContractHost

namespace Script

/-! ## Outputs as documents -/

/-- Whatever can be written in the levels that may be entered is read as it is. -/
theorem outputReader_within {d : Nat} {n : Node} (h : n.Within d) :
    outputReader d n = some n := by
  -- The induction is that of `Within` itself, whose last cases are the nodes it leaves out.
  induction d, n using Node.Within.induct with
  | case1 d => cases d <;> rfl
  | case2 d b => cases d <;> rfl
  | case3 d n => cases d <;> rfl
  | case4 d s => cases d <;> rfl
  | case5 d items ih =>
      rw [outputReader, Reader.mapM_self fun n hn => ih n (h n hn)]
      rfl
  | case6 d members ih =>
      -- Members are read one by one, and each of them has a name, or the record would not be
      -- within.
      have hmembers : members.mapM (fun m => m.1.bind fun label =>
          (outputReader d m.2).bind fun content => some (some label, content)) = some members := by
        apply Reader.mapM_self
        intro m hm
        rcases m with ⟨label, content⟩
        rcases h _ hm with ⟨hlabel, hcontent⟩
        rcases Option.isSome_iff_exists.mp hlabel with ⟨label, rfl⟩
        rw [ih _ hcontent]
        rfl
      rw [outputReader]
      exact congrArg (Option.bind · fun members => some (Node.record members)) hmembers
  | case7 => exact h.elim
  | case8 => exact h.elim
  | case9 => exact absurd h (by rw [Node.Within]; exact not_false)
  | case10 => exact absurd h (by rw [Node.Within]; exact not_false)

/-- An output that is not too deep is read back. -/
theorem nestedOutput_write {d : Nat} {outputs : List Node} (h : ∀ n ∈ outputs, n.Within d)
    (hd : d < nestingLimit) : nestedOutput (Json.write (.list outputs)) = .ok (.list outputs) := by
  have hwithin : (Node.list outputs).Within nestingLimit := (Node.within_list h).mono hd
  unfold nestedOutput
  rw [Json.read?_write hwithin, Option.bind_some, outputReader_within hwithin]

/-! ## Operations -/

/-- If there is an output, it can be written in so many levels. -/
def Outputs (d : Nat) (r : Metered Node) : Prop := ∀ n, r.1 = .ok n → n.Within d

/-- What is handed back is as deep as what an answer is put into. -/
theorem outputs_map {α : Type} {d : Nat} {f : α → Node} (hf : ∀ a, (f a).Within d)
    (r : Except HostError α) (gas : Report) : Outputs d (r.map f, gas) := by
  intro n hn
  cases r with
  | error e => cases hn
  | ok a =>
      cases hn
      exact hf a

theorem outputs_error (d : Nat) (e : HostError) (gas : Report) : Outputs d (.error e, gas) := nofun

theorem shown_within (b : Bytes) (d : Nat) : (shown b).Within d := Node.within_text _ d

theorem optional_within {α : Type} {f : α → Node} {d : Nat} (hf : ∀ a, (f a).Within d)
    (o : Option α) : (Node.optional (o.map f)).Within d := by
  cases o with
  | none => exact Node.within_null d
  | some a => exact hf a

theorem recordsNode_within (found : List Record) : (recordsNode found).Within 2 := by
  apply Node.within_list
  intro n hn
  rcases List.mem_map.mp hn with ⟨record, -, rfl⟩
  exact Node.within_list (by simp [shown_within])

theorem responseNode_within (r : Response) : (responseNode r).Within 1 := by
  rcases r with (data | text) | error
  · exact Node.within_object (by simp [shown_within])
  · exact Node.within_object (by simp [Node.within_text])
  · exact Node.within_object (by simp [Node.within_text])

/-- An operation that runs no other script outputs two levels at most. -/
theorem leaf_outputs (s : Setting) (used : Report) {op : Op} (h : op.IsLeaf) :
    (perform s used op).Yields (Outputs 2) := by
  cases op with
  | set key value => exact .after fun r => .pure (outputs_map (fun _ => Node.within_null 2) _ _)
  | get key =>
      exact .after fun r => .pure (outputs_map (optional_within fun b => shown_within b 2) _ _)
  | delete key => exact .after fun r => .pure (outputs_map (fun _ => Node.within_null 2) _ _)
  | scan start stop descending =>
      refine .after fun r => ?_
      rcases r with ⟨e | cursor, gas⟩
      · exact .pure (outputs_error 2 e gas)
      · exact .after fun w => .after fun r => .pure (outputs_map recordsNode_within _ _)
  | call contract delegate funds ops => exact h.elim
  | query request gasLimit =>
      exact .after fun r =>
        .pure (outputs_map (fun r => (responseNode_within r).mono (by decide)) _ _)
  | canonicalize address =>
      exact .after fun r => .pure (outputs_map (fun _ => Node.within_text _ 2) _ _)
  | fail message => exact .pure (outputs_error 2 _ _)
  | panic message => exact .panic _ _

end Script

/-- For a script that is not too deep, the engine writes a list of outputs that are no deeper. -/
def Engine.Writes (engine : Engine) : Prop :=
  ∀ (invocation : Invocation) (call : Handle) (d : Nat) (ops : List Op),
    Script.decode? invocation.msg = some ops → Script.Fits d ops → d < nestingLimit →
      (engine invocation call).Yields fun r => ∀ output, r.1 = .ok output →
        ∃ outputs : List Node, output = Json.write (.list outputs) ∧ ∀ n ∈ outputs, n.Within d

namespace Script

/-- The run of a callee is handed the script of the call, which it reads back. -/
theorem Moment.opened_decodes {m : Moment} {start : Start} (h : m.opened = some start) {d : Nat}
    (hfits : m.op.Fits d) (hd : d < nestingLimit) :
    ∃ contract delegate funds ops d', m.op = .call contract delegate funds ops ∧ d = d' + 3 ∧
      Fits d' ops ∧ decode? start.invocation.msg = some ops := by
  rcases opened_cases h with
    ⟨contract, delegate, funds, ops, _, _, _, hop, -, -, -, -, hmsg⟩
  rw [hop] at hfits
  rcases hfits.of_call with ⟨d', rfl, hops⟩
  refine ⟨contract, delegate, funds, ops, d', hop, rfl, hops, ?_⟩
  rw [hmsg]
  exact decode?_encode fun op hop => (hops op hop).mono (by omega)

/-- What a nested run outputs is read by the run that has started it, and takes a level more. -/
theorem Moment.nested_outputs {m : Moment} {d : Nat} (hnested : m.setting.nested.Writes)
    (hfits : m.op.Fits d) (hd : d < nestingLimit) {start : Start} (h : m.opened = some start)
    {output : Bytes} {gas : Report} {w : World}
    (hrun : m.setting.nested start.invocation start.call start.world =
      (.ok (.ok output, gas), w)) :
    ∃ n : Node, nestedOutput output = .ok n ∧ n.Within d := by
  rcases m.opened_decodes h hfits hd with ⟨_, _, _, ops, d', -, rfl, hops, hdecode⟩
  -- The engine below has read the script of the call, so what it says of itself applies.
  rcases hnested _ _ d' ops hdecode hops (by omega) _ _ _ hrun output rfl with
    ⟨outputs, rfl, houtputs⟩
  exact ⟨_, nestedOutput_write houtputs (by omega), (Node.within_list houtputs).mono (by omega)⟩

/-- An operation outputs no more levels than it takes itself. -/
theorem perform_outputs {s : Setting} {op : Op} {d : Nat} (hnested : s.nested.Writes)
    (hfits : op.Fits d) (hd : d < nestingLimit) (used : Report) :
    (perform s used op).Yields (Outputs d) := by
  -- How deep the script is matters for a call only.
  by_cases hleaf : op.IsLeaf
  · intro w r w' h n hn
    exact (leaf_outputs s used hleaf w r w' h n hn).mono hfits.two_le
  · cases op with
    | call contract delegate funds ops =>
        intro w r w' h n hn
        rcases r with ⟨r, gas⟩
        rcases Moment.performed_call h with ⟨e, rfl, -⟩ | ⟨e, _, _, _, rfl, -⟩ |
          ⟨start, output, gas', w₁, hopened, hrun, rfl⟩
        · cases hn
        · cases hn
        · cases output with
          | error e => cases hn
          | ok output =>
              -- The caller outputs the tree that it has read.
              rcases Moment.nested_outputs hnested hfits hd hopened hrun with ⟨n', hread, hwithin⟩
              have hn' : nestedOutput output = .ok n := hn
              rw [hread] at hn'
              cases hn'
              exact hwithin
    | _ => exact absurd trivial hleaf

/-! ## Runs -/

/-- The charge for an operation can lose its output, but does not change it. -/
theorem step_outputs {s : Setting} {op : Op} {d : Nat} (hnested : s.nested.Writes)
    (hfits : op.Fits d) (hd : d < nestingLimit) (used : Report) :
    (step s used op).Yields (Outputs d) := by
  refine .bind (perform_outputs hnested hfits hd used) fun r hr => ?_
  rcases r with ⟨e | output, gas⟩
  · exact .pure (outputs_error d e _)
  · dsimp only
    -- The output is lost if the run is over its limit, and is the same else.
    split
    · exact .pure (outputs_error d _ _)
    · refine .pure fun n hn => ?_
      cases hn
      exact hr output rfl

/-- A script outputs a list of what its operations output. -/
theorem runOps_outputs {s : Setting} {ops : List Op} {d : Nat} (hnested : s.nested.Writes)
    (hfits : Fits d ops) (hd : d < nestingLimit) (used : Report) :
    (runOps s used ops).Yields fun r =>
      ∀ outputs, r.1 = .ok outputs → ∀ n ∈ outputs, n.Within d := by
  induction ops generalizing used with
  | nil =>
      refine .pure fun outputs h n hn => ?_
      cases h
      exact absurd hn List.not_mem_nil
  | cons op ops ih =>
      have hop : op.Fits d := hfits op List.mem_cons_self
      have hops : Fits d ops := fun op' hop' => hfits op' (List.mem_cons_of_mem op hop')
      refine .bind (step_outputs hnested hop hd used) fun r hr => ?_
      rcases r with ⟨e | output, used'⟩
      · exact .pure nofun
      · -- The rest of the script starts on other gas, which the outputs do not depend on.
        refine .bind (ih hops used') fun rest hrest => .pure fun outputs h n hn => ?_
        rcases rest with ⟨e | rest, used''⟩
        · cases h
        · cases h
          rcases List.mem_cons.mp hn with rfl | hn
          · exact hr _ rfl
          · exact hrest rest rfl n hn

/-- An engine writes if the one below it does. -/
theorem engineOver_writes (host : Host) {nested : Engine} (hnested : nested.Writes) :
    (engineOver host nested).Writes := by
  intro invocation call d ops hdecode hfits hd
  refine .after fun _ => ?_
  rw [hdecode]
  have houtputs := runOps_outputs (s := ⟨host, nested, invocation, call⟩) hnested hfits hd .free
  refine .bind houtputs fun r hr => .pure fun output h => ?_
  rcases r with ⟨e | outputs, used⟩
  · cases h
  · cases h
    exact ⟨outputs, rfl, hr outputs rfl⟩

/-- What runs nothing writes nothing. -/
theorem refusal_writes : refusal.Writes := by
  intro invocation call d ops _ _ _
  exact .pure nofun

/-- The engine writes, at every level. -/
theorem engineAt_writes (host : Host) (level : Nat) : (engineAt host level).Writes := by
  induction level with
  | zero => exact engineOver_writes host refusal_writes
  | succ level ih => exact engineOver_writes host ih

end Script

end ContractHost
