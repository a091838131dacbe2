import ContractHost.Query.Plan
import ContractHost.Query.Response

/-!
# A Querier with Given Answers

A querier that charges for every byte of a request and answers from a table. A request
without an answer is unsupported.

## Main definitions

* `Chain.respond`, `Chain.respondRaw`: Set the answer to a request.
* `Querier.answering`: The querier.
* `Querier.scripted`: A querier that charges, refuses or panics as it is told.
-/

namespace ContractHost

namespace Chain

/-- Answers a request with exactly these bytes. -/
def respondRaw (c : Chain) (request response : Bytes) : Chain :=
  { c with answers := c.answers.set request response }

/-- Answers a request with the data of a contract. -/
def respond (c : Chain) (request data : Bytes) : Chain :=
  c.respondRaw request (Response.ok (.ok data)).encode

end Chain

/-- What a scripted querier does when its meter refuses a charge. -/
inductive OnRefusal
  /-- Goes on. -/
  | ignore
  /-- Refuses with an error of its own that quotes the meter's. -/
  | wrap
  /-- Refuses with the meter's error. -/
  | pass
deriving DecidableEq

/-- How a scripted querier ends. -/
inductive QueryEnd
  | panic (p : Panic)
  | refuse (e : HostError)
  | answer (b : Bytes)
  /-- Answers with the request. -/
  | echo

namespace Querier

/-- Answers from the chain's table, for a price per byte of the request. -/
def answering (gasPerByte : UInt64) : Querier := fun c request =>
  .charge (Word.mul gasPerByte request.size) fun
    | .error e => .done (.error e)
    | .ok () =>
      match c.answers.get? request with
      | some response => .done (.ok response)
      | none =>
        .done (.ok (Response.err (.unsupportedRequest (Utf8.lossy request))).encode)

/-- The last step of a scripted querier. -/
def scriptedEnd (last : QueryEnd) (request : Bytes) : QueryPlan :=
  match last with
  | .panic p => .panic p
  | .refuse e => .done (.error e)
  | .answer b => .done (.ok b)
  | .echo => .done (.ok request)

/-- Makes some charges and ends as told. -/
def scripted (charges : List UInt64) (onRefusal : OnRefusal) (last : QueryEnd) : Querier :=
  fun _ request =>
    charges.foldr
      (fun amount next => .charge amount fun
        | .ok () => next
        | .error e =>
          match onRefusal with
          | .ignore => next
          | .wrap => .done (.error (.query e.message))
          | .pass => .done (.error e))
      (scriptedEnd last request)

end Querier

end ContractHost
