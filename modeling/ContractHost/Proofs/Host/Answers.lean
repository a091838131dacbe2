import ContractHost.Proofs.Document.Wire
import ContractHost.Proofs.Host.Exhaustion
import ContractHost.Proofs.Host.Queries
import Mathlib.Data.List.Induction

/-!
# Queries with Given Answers

A querier that answers from a table is asked by a running contract, and the answer comes back
decoded. On the way it is written by the table, passed on by a host that meters the query, and
read by whoever asked. The table may hold anything, since an answer can be set to any bytes.

The three parts are taken one at a time. What is found in the table is what has been set last;
what the querier charges decides alone whether the query is out of gas; and a response that has
been written is read back, whatever the bytes in it are. The request need not be text, so an
unsupported one is reported by as much of it as is text.

## Main definitions

* `Prepared`, `Prepared.Gives`: What is set for a request, and what it is decoded to.
* `Chain.prepare`, `lastPrepared`: Answers set in a row, and the last one for a request.

## Theorems

* `Chain.get?_prepare`: What is found after answers in a row.
* `Response.parse_encode`: A response that is written is read back.
* `Querier.run_answering`: The querier on the meter of a query.
* `World.queryDecoded_answering`: A query of a live call.
-/

namespace ContractHost

/-! ## The table -/

/-- What is set for a request: the data of a contract, or any bytes. -/
inductive Prepared
  | data (b : Bytes)
  | raw (b : Bytes)

namespace Prepared

/-- Sets the answer to a request. -/
def on (request : Bytes) (c : Chain) : Prepared → Chain
  | data b => c.respond request b
  | raw b => c.respondRaw request b

/-- The bytes a request is answered with. -/
def bytes : Prepared → Bytes
  | data b => (Response.ok (.ok b)).encode
  | raw b => b

/-- The responses that a request may be decoded to, by what is set for it. Only the wording of
    a complaint about bytes that hold no response is left open. -/
def Gives (request : Bytes) : Option Prepared → Response → Prop
  | none, r => r = .err (.unsupportedRequest (Utf8.lossy request))
  | some (data b), r => r = .ok (.ok b)
  | some (raw b), r =>
    (∀ x, Response.decode? b = some x → r = x) ∧
      (Response.decode? b = none → ∃ error, r = .err (.invalidResponse error b))

theorem answers_on (request : Bytes) (c : Chain) (answer : Prepared) :
    (answer.on request c).answers = c.answers.set request answer.bytes := by
  cases answer with
  | data b => rfl
  | raw b => rfl

end Prepared

/-- The chain after answers that are set in a row. -/
def Chain.prepare (c : Chain) (given : List (Bytes × Prepared)) : Chain :=
  given.foldl (fun c r => r.2.on r.1 c) c

/-- The answer to a request that is set last. -/
def lastPrepared (request : Bytes) (given : List (Bytes × Prepared)) : Option Prepared :=
  (given.reverse.find? fun r => r.1 = request).map (·.2)

/-- What is found is what has been set last, or what was there if nothing has been set. -/
theorem Chain.get?_prepare (c : Chain) (given : List (Bytes × Prepared)) (request : Bytes) :
    (c.prepare given).answers.get? request =
      ((lastPrepared request given).map Prepared.bytes).or (c.answers.get? request) := by
  -- The answer that is set last decides, so the induction takes the last one off.
  induction given using List.reverseRecOn with
  | nil => rfl
  | append_singleton given r ih =>
      have hstep : (c.prepare (given ++ [r])).answers =
          (c.prepare given).answers.set r.1 r.2.bytes := by
        unfold prepare
        rw [List.foldl_append]
        exact Prepared.answers_on r.1 _ r.2
      have hlast : lastPrepared request (given ++ [r]) =
          if request = r.1 then some r.2 else lastPrepared request given := by
        unfold lastPrepared
        rw [List.reverse_append, List.reverse_singleton, List.singleton_append]
        by_cases hr : request = r.1
        · have hhere : decide (r.1 = request) = true := decide_eq_true hr.symm
          simp only [if_pos hr, List.find?_cons, hhere, Option.map_some]
        · have hother : decide (r.1 = request) = false :=
            decide_eq_false fun h => hr h.symm
          simp only [if_neg hr, List.find?_cons, hother]
      rw [hstep, Table.get?_set, hlast]
      by_cases hr : request = r.1
      · rw [if_pos hr, if_pos hr, Option.map_some, Option.some_or]
      · rw [if_neg hr, if_neg hr, ih]

/-! ## The querier -/

/-- A response that is written is read back. -/
theorem Response.parse_encode (r : Response) : parse r.encode = r := by
  have hread : decode? r.encode = some r := r.readsBack.ofJson?_write (by decide)
  unfold parse
  rw [hread]

/-- Whatever is set for a request, the bytes that answer it are decoded to what it gives. -/
theorem Prepared.gives_parse (request : Bytes) (answer : Prepared) :
    Gives request (some answer) (Response.parse answer.bytes) := by
  cases answer with
  | data b => exact Response.parse_encode _
  | raw b =>
      constructor
      · intro x hread
        rw [bytes, Response.parse, hread]
      · intro hread
        exact ⟨malformedJson, by rw [bytes, Response.parse, hread]⟩

namespace Querier

/-- What an answering querier charges for a request. -/
def answeringPrice (gasPerByte : UInt64) (request : Bytes) : UInt64 :=
  Word.mul gasPerByte request.size

/-- A length is clamped before the price is, which makes no difference. -/
theorem toNat_answeringPrice (gasPerByte : UInt64) (request : Bytes) :
    (answeringPrice gasPerByte request).toNat =
      min (gasPerByte.toNat * request.length) Word.top := by
  unfold answeringPrice Bytes.size
  rw [Word.toNat_mul, Word.toNat_clamp]
  by_cases hfits : request.length ≤ Word.top
  · rw [Nat.min_eq_left hfits]
  · rw [Nat.min_eq_right (Nat.le_of_not_le hfits)]
    rcases Nat.eq_zero_or_pos gasPerByte.toNat with hfree | hprice
    · rw [hfree, Nat.zero_mul, Nat.zero_mul]
    · -- A length beyond the largest word makes a price beyond it, clamped or not.
      have hclamped := Nat.le_mul_of_pos_left Word.top hprice
      have hexact := Nat.le_mul_of_pos_left request.length hprice
      omega

/-- The bytes an answering querier answers with. -/
def answerOf (c : Chain) (request : Bytes) : Bytes :=
  (c.answers.get? request).getD
    (Response.err (.unsupportedRequest (Utf8.lossy request))).encode

/-- An answering querier charges once and goes by the verdict. -/
theorem run_answering (gasPerByte : UInt64) (c : Chain) (request : Bytes) (limit : UInt64) :
    (answering gasPerByte c request).run (.new (some limit)) =
      (.ok (if limit < answeringPrice gasPerByte request then
          .error (.outOfGas limit (answeringPrice gasPerByte request))
        else .ok (answerOf c request)), ⟨some limit, answeringPrice gasPerByte request⟩) := by
  have hcharged : (Meter.new (some limit)).charged (answeringPrice gasPerByte request) =
      ⟨some limit, answeringPrice gasPerByte request⟩ := by
    unfold Meter.charged Meter.new
    rw [Word.zero_add]
  have hcharge : (Meter.new (some limit)).charge (answeringPrice gasPerByte request) =
      (if limit < answeringPrice gasPerByte request then
        .error (.outOfGas limit (answeringPrice gasPerByte request)) else .ok (),
        ⟨some limit, answeringPrice gasPerByte request⟩) := by
    rw [Meter.charge_eq, hcharged]
    simp only [Meter.isOver, decide_eq_true_eq, Meter.bound, Meter.new, Option.getD_some]
  unfold answering QueryPlan.run
  rw [← answeringPrice, hcharge]
  by_cases hover : limit < answeringPrice gasPerByte request
  · rw [if_pos hover, if_pos hover]
    rfl
  · rw [if_neg hover, if_neg hover]
    unfold answerOf
    cases c.answers.get? request with
    | none => rfl
    | some response => rfl

end Querier

/-! ## A query -/

namespace World

variable {call : Handle} {ctx : Context} {w : World} {p : UInt64}
  {given : List (Bytes × Prepared)}

/-- A query of a live call whose querier answers from a table, at the price `p` for a byte. It
    returns and leaves the world as it is. It is out of gas exactly if the price of the request,
    as far as it fits in a word, is more than the limit `g`. Otherwise it hands back what the
    answer set last gives: the data of a contract, whatever bytes they are; the response that some
    bytes hold, or a complaint with exactly these bytes if they hold none; and for a request to
    which no answer is set a complaint with as much of the request as is text. -/
theorem queryDecoded_answering (hlive : w.registry.lookup call = .ok ctx)
    (hquerier : ctx.binding.querier = .answering p)
    (hanswers : w.chain.answers = (Chain.empty.prepare given).answers) (request : Bytes)
    (g : UInt64) :
    ∃ result gas, World.queryDecoded call request g w = (.ok (result, gas), w) ∧
      (OutOfGas result ↔ g.toNat < min (p.toNat * request.length) Word.top) ∧
      (¬ OutOfGas result →
        ∃ r, result = .ok r ∧ Prepared.Gives request (lastPrepared request given) r) := by
  have hrun := Querier.run_answering p w.chain request g
  rw [← hquerier] at hrun
  have hquery := query_live hlive request g hrun
  -- The table starts out empty, so a request without an answer is not supported.
  have hgives : Prepared.Gives request (lastPrepared request given)
      (Response.parse (Querier.answerOf w.chain request)) := by
    have hfound := Chain.empty.get?_prepare given request
    unfold Querier.answerOf
    rw [hanswers, hfound]
    cases lastPrepared request given with
    | none => exact Response.parse_encode _
    | some answer => exact answer.gives_parse request
  rw [← Querier.toNat_answeringPrice, ← UInt64.lt_iff_toNat_lt]
  unfold queryDecoded
  rw [Action.bind_apply, hquery]
  -- The price is more than the limit, and there is no answer, or the answer is decoded.
  by_cases hover : g < Querier.answeringPrice p request
  · simp only [Except.map, if_pos hover]
    refine ⟨_, _, rfl, iff_of_true ⟨_, _, rfl⟩ hover, fun hfunded => ?_⟩
    exact absurd ⟨_, _, rfl⟩ hfunded
  · simp only [Except.map, if_neg hover]
    exact ⟨_, _, rfl, iff_of_false (not_outOfGas_ok _) hover, fun _ => ⟨_, rfl, hgives⟩⟩

/-- Bytes that are set for one request are replaced by data that are not text. Another request
    is answered with bytes that hold no response. -/
def givenAnswers : List (Bytes × Prepared) :=
  [([113], .raw [1, 2]), ([114], .raw [91]), ([113], .data [255, 0])]

/-- A world with these answers. -/
def prepared : World :=
  { World.small with chain := World.small.chain.prepare givenAnswers }

/-- At the price of one for a byte, a limit of one is enough for the data and for the complaint
    about the bytes, and a limit of zero is not. -/
theorem queryDecoded_answering_of_data :
    (∃ gas, World.queryDecoded ⟨1⟩ [113] 1 prepared =
      (.ok (.ok (.ok (.ok [255, 0])), gas), prepared)) ∧
    (∃ gas error, World.queryDecoded ⟨1⟩ [114] 1 prepared =
      (.ok (.ok (.err (.invalidResponse error [91])), gas), prepared)) ∧
    ∃ result gas, World.queryDecoded ⟨1⟩ [113] 0 prepared = (.ok (result, gas), prepared) ∧
      OutOfGas result := by
  have hlive : prepared.registry.lookup ⟨1⟩ = .ok Context.small := rfl
  have hquerier : Context.small.binding.querier = .answering 1 := rfl
  have hanswers :
      prepared.chain.answers = (Chain.empty.prepare givenAnswers).answers := rfl
  have hquery := queryDecoded_answering hlive hquerier hanswers
  refine ⟨?_, ?_, ?_⟩
  · rcases hquery [113] 1 with ⟨result, gas, hresult, hgas, hgives⟩
    rcases hgives (fun h => absurd (hgas.mp h) (by decide)) with ⟨r, hr, rfl⟩
    rw [hr] at hresult
    exact ⟨gas, hresult⟩
  · rcases hquery [114] 1 with ⟨result, gas, hresult, hgas, hgives⟩
    rcases hgives (fun h => absurd (hgas.mp h) (by decide)) with ⟨r, hr, -, hbad⟩
    rcases hbad (by decide +kernel) with ⟨error, herror⟩
    rw [hr, herror] at hresult
    exact ⟨gas, error, hresult⟩
  · rcases hquery [113] 0 with ⟨result, gas, hresult, hgas, -⟩
    exact ⟨result, gas, hresult, hgas.mpr (by decide)⟩

end World

end ContractHost
