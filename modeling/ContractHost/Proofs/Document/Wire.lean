import ContractHost.Chain.Coin
import ContractHost.Chain.Creation
import ContractHost.Code.Cache
import ContractHost.Config.OfJson
import ContractHost.Proofs.Document.Reader
import ContractHost.Query.Response

/-!
# What Travels as JSON

Twelve types have a written form that both sides of the host rely on. Each has a reader and a
writer of its own, so that the two fit together is a statement about each of them; it is shown
for all values, from the members upwards.

Byte strings travel in Base64. A document can say the same thing in several ways, but not the
bytes: whichever document is accepted for a value, the texts that it holds for the byte members
are the ones the value is written with.

## Main definitions

* `Wire`: The types.
* `Wire.payloads`: The byte strings in a value.
* `Wire.spelled`: The texts that a document holds for them.

## Theorems

* `Coin.readsBack`, `CreateRequest.readsBack` and so on: The values of each type.
* `CreateRequest.spelled_eq`, `ContractResult.spelled_eq` and so on: The bytes in a document.
* `Wire.round_trips`: All types.
-/

namespace ContractHost

open Reader

/-- What is read back from its document is read back from the bytes of the document. -/
theorem Reader.ReadsBack.ofJson?_write {α : Type} {r : Reader α} {toNode : α → Node}
    {levels : Nat} {x : α} (h : ReadsBack r toNode levels x) (hle : levels ≤ nestingLimit) :
    r.ofJson? (Json.write (toNode x)) = some x := by
  rcases h nestingLimit hle with ⟨hread, hwithin⟩
  rw [ofJson?, Json.read?_write hwithin, Option.bind_some, hread]

/-! ## Values of each type -/

namespace Coin

/-- A coin is a record of two texts. -/
theorem readsBack (c : Coin) : ReadsBack reader toNode 1 c := by
  apply readsBack_of_succ
  intro d _
  rw [reader, toNode]
  apply readsBack_object
  · rfl
  · decide
  · rfl
  · simp [Node.within_text]

/-- Coins in a list take a level more. -/
theorem list_readsBack (coins : List Coin) : ReadsBack listReader listNode 2 coins :=
  readsBack_listOf fun c _ => c.readsBack

end Coin

/-- What a contract is told of its caller has a list of coins in it. -/
theorem MessageInfo.readsBack (m : MessageInfo) : ReadsBack reader toNode 3 m := by
  apply readsBack_of_succ
  intro d hd
  -- The member that is a type of its own is read back by what has been shown of that type.
  rcases Coin.list_readsBack m.funds d hd with ⟨hread, hwithin⟩
  rw [reader, toNode]
  apply readsBack_object
  · rfl
  · decide
  · simp [Fields.get?, List.lookup_cons, Reader.text, hread]
  · simp [Node.within_text, hwithin]

/-- A request to create a contract has bytes in it, and two members that may be missing. -/
theorem CreateRequest.readsBack (r : CreateRequest) : ReadsBack reader toNode 1 r := by
  apply readsBack_of_succ
  intro d hd
  have hbytes (b : Bytes) : base64 d (.text (Base64.encode b)) = some b := Base64.decode?_encode b
  -- A member that is missing is written as null, and null is read as a missing one.
  rcases readsBack_optionOf (o := r.admin) (fun s _ => readsBack_text s) (by simp) d hd with
    ⟨hadmin, hadmin'⟩
  rcases readsBack_optionOf (o := r.salt) (fun b _ => readsBack_base64 b) (by simp) d hd with
    ⟨hsalt, hsalt'⟩
  rw [reader, toNode]
  apply readsBack_object
  · rfl
  · decide
  · simp [Fields.get?, Fields.getD, List.lookup_cons, Reader.text, Reader.bool, hbytes, hadmin,
      hsalt]
  · simp [Node.within_text, Node.within_bool, hadmin', hsalt']

theorem choice_object (name : String) (content : Node) (d : Nat) :
    choice (d + 1) (.object [(name, content)]) = some (name, content, d) := rfl

/-- An answer is one of two alternatives. -/
theorem ContractResult.readsBack (r : ContractResult) : ReadsBack reader toNode 1 r := by
  apply readsBack_of_succ
  intro d _
  cases r with
  | ok data =>
      have hdata : base64 d (.text (Base64.encode data)) = some data := Base64.decode?_encode data
      refine ⟨?_, Node.within_object (by simp [Node.within_text])⟩
      rw [reader, toNode, choice_object]
      simp [hdata]
  | err text => exact ⟨rfl, Node.within_object (by simp [Node.within_text])⟩

namespace SystemError

/-- An error has a record of its own behind the name of its kind. -/
theorem readsBack (e : SystemError) : ReadsBack reader toNode 2 e := by
  apply readsBack_of_succ
  intro d hd
  -- The alternative takes a level, and the record of its members takes the second one.
  cases d with
  | zero => omega
  | succ d =>
      have hbytes (b : Bytes) : base64 d (.text (Base64.encode b)) = some b :=
        Base64.decode?_encode b
      constructor
      · cases e with
        | invalidRequest error request =>
            rw [reader, toNode, choiceNode, choice_object]
            simp [Fields.get?, List.lookup_cons, Reader.text, hbytes, fields_object]
        | invalidResponse error response =>
            rw [reader, toNode, choiceNode, choice_object]
            simp [Fields.get?, List.lookup_cons, Reader.text, hbytes, fields_object]
        | noSuchContract addr => rfl
        | unknown => rfl
        | unsupportedRequest kind => rfl
      · cases e <;> exact Node.within_object
          (by simpa using Node.within_object (by simp [Node.within_text]))

end SystemError

/-- A response is an answer or an error, a level below it. -/
theorem Response.readsBack (r : Response) : ReadsBack reader toNode 3 r := by
  apply readsBack_of_succ
  intro d hd
  cases r with
  | ok result =>
      rcases result.readsBack d (by omega) with ⟨hread, hwithin⟩
      refine ⟨?_, Node.within_object (by simp [hwithin])⟩
      rw [reader, toNode, choice_object]
      simp [hread]
  | err error =>
      rcases error.readsBack d hd with ⟨hread, hwithin⟩
      refine ⟨?_, Node.within_object (by simp [hwithin])⟩
      rw [reader, toNode, choice_object]
      simp [hread]

/-- The required features are a list of texts. -/
theorem Analysis.readsBack (a : Analysis) : ReadsBack reader toNode 2 a := by
  apply readsBack_of_succ
  intro d hd
  -- What is known of a list of texts is said of the two forms in which the list stands here.
  have hfeatures := readsBack_listOf (fun s (_ : s ∈ a.requiredFeatures) => readsBack_text s) d hd
  have hread : listOf text d (.strings a.requiredFeatures) = some a.requiredFeatures := hfeatures.1
  have hwithin : (Node.strings a.requiredFeatures).Within d := hfeatures.2
  rw [reader, toNode]
  apply readsBack_object
  · rfl
  · decide
  · change (listOf text d (.strings a.requiredFeatures)).bind _ = _
    rw [hread]
    rfl
  · simp [Node.within_bool, hwithin]

/-- The counters are words of two widths. -/
theorem Metrics.readsBack (m : Metrics) : ReadsBack reader toNode 1 m := by
  apply readsBack_of_succ
  intro d hd
  have hword (w : UInt64) : word d (.integer w.toNat) = some w := (readsBack_word w d hd).1
  have hword32 (w : UInt32) : word32 d (.integer w.toNat) = some w := (readsBack_word32 w d hd).1
  rw [reader, toNode, named]
  apply readsBack_object
  · rfl
  · decide
  · simp [Fields.get?, List.lookup_cons, hword, hword32]
  · simp [Node.within_integer]

theorem Checksum.readsBack (c : Checksum) : ReadsBack reader toNode 1 c := by
  intro d hd
  -- There are as many numbers as a checksum has bytes, so the length that is demanded is met.
  rcases readsBack_listOf (fun b (_ : b ∈ c.bytes) => readsBack_byte b) d hd with
    ⟨hread, hwithin⟩
  refine ⟨?_, hwithin⟩
  rw [reader, toNode, hread, Option.bind_some, ofBytes?, dif_pos c.length_bytes]

theorem Prices.readsBack (p : Prices) : ReadsBack (reader .json) toNode 1 p := by
  apply readsBack_of_succ
  intro d hd
  have hword (w : UInt64) : word d (.word w) = some w := (readsBack_word w d hd).1
  rw [reader, toNode]
  apply readsBack_object
  · rfl
  · decide
  · simp [Fields.getD, List.lookup_cons, hword]
  · simp [Node.word, Node.within_integer]

/-- A level is read back from its name. -/
theorem LogOptions.readsBack (o : LogOptions) : ReadsBack (reader .json) toNode 1 o := by
  apply readsBack_of_succ
  intro d _
  rcases o with ⟨level, json⟩
  constructor
  · cases level <;> rfl
  · exact Node.within_object (by simp [Node.within_text, Node.within_bool])

/-! ## The bytes in a document -/

/-- The text that a node is, if it is one. -/
def Node.text? : Node → Option String
  | .text s => some s
  | _ => none

/-- The texts that a document of a record type holds for some of its members. -/
def Node.texts (names : List String) (wanted : List String) (n : Node) : List String :=
  (wanted.flatMap (n.held names)).filterMap text?

/-- What a document of a sum type holds for an alternative. -/
def Node.alternative (name : String) : Node → List Node
  | .record members => (members.filter fun m => m.1 = some name).map (·.2)
  | _ => []

/-- A document of a sum type holds one thing for its alternative and nothing for the others. -/
theorem alternative_of_choice {d d' : Nat} {n content : Node} {name : String}
    (h : choice d n = some (name, content, d')) (name' : String) :
    n.alternative name' = if name = name' then [content] else [] := by
  rcases eq_of_choice h with ⟨-, rfl⟩
  by_cases hname : name = name' <;> simp [Node.alternative, hname]

/-- Bytes have one text in base64, and no other is accepted for them. -/
theorem eq_of_base64 {d : Nat} {n : Node} {b : Bytes} (h : base64 d n = some b) :
    n = .text (Base64.encode b) := by
  rcases Option.bind_eq_some_iff.mp h with ⟨s, hs, hb⟩
  cases n with
  | text s' =>
      cases hs
      rw [Base64.decode?_eq_some_iff.mp hb]
  | _ => cases hs

theorem texts_get? {f : Fields} {name : String} {b : Bytes}
    (h : f.get? name base64 = some b) :
    (f.found.lookup name).toList.filterMap Node.text? = [Base64.encode b] := by
  rcases Option.bind_eq_some_iff.mp h with ⟨n, hn, hb⟩
  rw [hn, eq_of_base64 hb]
  rfl

/-- A member that may be missing, or be null, holds the text of its bytes if there are any. -/
theorem texts_getD {f : Fields} {name : String} {o : Option Bytes}
    (h : f.getD name none (optionOf base64) = some o) :
    (f.found.lookup name).toList.filterMap Node.text? = o.toList.map Base64.encode := by
  unfold Fields.getD at h
  split at h
  · next hnone =>
    cases h
    rw [hnone]
    rfl
  · next n hn =>
    rw [hn]
    unfold optionOf at h
    split at h
    · cases h
      rfl
    · rcases Option.map_eq_some_iff.mp h with ⟨b, hb, rfl⟩
      rw [eq_of_base64 hb]
      rfl

/-- The texts that a document of a request holds for bytes. -/
def CreateRequest.spelled (n : Node) : List String :=
  n.texts ["creator", "wasm_code", "init_msg", "admin_addr", "label", "is_create2", "salt"]
    ["wasm_code", "init_msg", "salt"]

theorem CreateRequest.spelled_eq {d : Nat} {n : Node} {r : CreateRequest}
    (h : reader d n = some r) :
    spelled n = (r.code :: r.initMsg :: r.salt.toList).map Base64.encode := by
  simp only [reader, Option.bind_eq_bind, Option.bind_eq_some_iff] at h
  rcases h with ⟨f, hf, creator, -, code, hcode, initMsg, hinit, admin, -, label, -, create2, -,
    salt, hsalt, h⟩
  cases h
  -- What the reader has found is all that the document holds.
  have hheld := held_eq hf (by decide)
  unfold spelled Node.texts
  simp only [List.flatMap_cons, List.flatMap_nil, List.filterMap_append, List.append_nil]
  rw [hheld "wasm_code" (by decide), hheld "init_msg" (by decide), hheld "salt" (by decide),
    texts_get? hcode, texts_get? hinit, texts_getD hsalt]
  rfl

namespace ContractResult

/-- The texts that a document of an answer holds for bytes. -/
def spelled (n : Node) : List String := (n.alternative "ok").filterMap Node.text?

/-- The bytes in an answer. -/
def payloads : ContractResult → List Bytes
  | ok data => [data]
  | err _ => []

theorem spelled_eq {d : Nat} {n : Node} {r : ContractResult} (h : reader d n = some r) :
    spelled n = r.payloads.map Base64.encode := by
  simp only [reader, Option.bind_eq_bind, Option.bind_eq_some_iff] at h
  rcases h with ⟨⟨name, content, d'⟩, hchoice, h⟩
  unfold spelled
  -- The document has one member, so an alternative that is not named there holds nothing.
  rw [alternative_of_choice hchoice]
  dsimp only at h
  split at h
  · next hname =>
    rcases Option.map_eq_some_iff.mp h with ⟨data, hdata, rfl⟩
    rw [if_pos hname, eq_of_base64 hdata]
    rfl
  · next hname =>
    rw [if_neg hname]
    split at h
    · rcases Option.map_eq_some_iff.mp h with ⟨text, -, rfl⟩
      rfl
    · cases h

end ContractResult

namespace SystemError

/-- The texts that a document of an error holds for bytes. -/
def spelled (n : Node) : List String :=
  (n.alternative "invalid_request").flatMap (Node.texts ["error", "request"] ["request"]) ++
    (n.alternative "invalid_response").flatMap (Node.texts ["error", "response"] ["response"])

/-- The bytes in an error. -/
def payloads : SystemError → List Bytes
  | invalidRequest _ request => [request]
  | invalidResponse _ response => [response]
  | _ => []

/-- The text for the one byte member of a record. -/
theorem texts_of_get? {names : List String} {name : String} {d : Nat} {n : Node} {f : Fields}
    {b : Bytes} (hf : fields names d n = some f) (hnodup : names.Nodup) (hname : name ∈ names)
    (h : f.get? name base64 = some b) : n.texts names [name] = [Base64.encode b] := by
  unfold Node.texts
  rw [List.flatMap_cons, List.flatMap_nil, List.append_nil, held_eq hf hnodup name hname,
    texts_get? h]

theorem spelled_eq {d : Nat} {n : Node} {e : SystemError} (h : reader d n = some e) :
    spelled n = e.payloads.map Base64.encode := by
  simp only [reader, Option.bind_eq_bind, Option.bind_eq_some_iff] at h
  rcases h with ⟨⟨name, content, d'⟩, hchoice, h⟩
  unfold spelled
  rw [alternative_of_choice hchoice, alternative_of_choice hchoice]
  dsimp only at h
  -- The name that has been found decides which of the two may hold bytes.
  by_cases hrequest : name = "invalid_request"
  · rw [if_pos hrequest] at h
    simp only [Option.bind_eq_some_iff] at h
    rcases h with ⟨f, hf, error, -, request, hget, h⟩
    cases h
    have htexts := texts_of_get? hf (by decide) (by decide) hget
    rw [hrequest]
    simpa [payloads] using htexts
  · rw [if_neg hrequest] at h ⊢
    by_cases hresponse : name = "invalid_response"
    · rw [if_pos hresponse] at h
      simp only [Option.bind_eq_some_iff] at h
      rcases h with ⟨f, hf, error, -, response, hget, h⟩
      cases h
      have htexts := texts_of_get? hf (by decide) (by decide) hget
      rw [if_pos hresponse]
      simpa [payloads] using htexts
    · rw [if_neg hresponse] at h ⊢
      -- The other alternatives hold no bytes.
      have hpayloads : e.payloads = [] := by
        split at h
        · simp only [Option.bind_eq_some_iff] at h
          rcases h with ⟨f, -, addr, -, h⟩
          cases h
          rfl
        · split at h
          · simp only [Option.bind_eq_some_iff] at h
            rcases h with ⟨f, -, h⟩
            cases h
            rfl
          · split at h
            · simp only [Option.bind_eq_some_iff] at h
              rcases h with ⟨f, -, kind, -, h⟩
              cases h
              rfl
            · cases h
      rw [hpayloads]
      rfl

end SystemError

namespace Response

/-- The texts that a document of a response holds for bytes. -/
def spelled (n : Node) : List String :=
  (n.alternative "ok").flatMap ContractResult.spelled ++
    (n.alternative "err").flatMap SystemError.spelled

/-- The bytes in a response. -/
def payloads : Response → List Bytes
  | ok result => result.payloads
  | err error => error.payloads

theorem spelled_eq {d : Nat} {n : Node} {r : Response} (h : reader d n = some r) :
    spelled n = r.payloads.map Base64.encode := by
  simp only [reader, Option.bind_eq_bind, Option.bind_eq_some_iff] at h
  rcases h with ⟨⟨name, content, d'⟩, hchoice, h⟩
  unfold spelled
  -- Whichever alternative it is, the document of the answer or the error lies behind its name.
  rw [alternative_of_choice hchoice, alternative_of_choice hchoice]
  dsimp only at h
  split at h
  · next hname =>
    rcases Option.map_eq_some_iff.mp h with ⟨result, hresult, rfl⟩
    have hspelled := ContractResult.spelled_eq hresult
    rw [hname]
    simpa [payloads] using hspelled
  · next hname =>
    rw [if_neg hname]
    split at h
    · next herr =>
      rcases Option.map_eq_some_iff.mp h with ⟨error, herror, rfl⟩
      have hspelled := SystemError.spelled_eq herror
      rw [if_pos herr]
      simpa [payloads] using hspelled
    · cases h

end Response

/-! ## All types -/

/-- The types that travel as JSON. -/
inductive Wire
  | coin
  | coins
  | messageInfo
  | createRequest
  | contractResult
  | systemError
  | response
  | analysis
  | metrics
  | checksum
  | prices
  | logOptions

namespace Wire

/-- The values of a type. -/
abbrev Value : Wire → Type
  | coin => Coin
  | coins => List Coin
  | messageInfo => MessageInfo
  | createRequest => CreateRequest
  | contractResult => ContractResult
  | systemError => SystemError
  | response => Response
  | analysis => Analysis
  | metrics => Metrics
  | checksum => Checksum
  | prices => Prices
  | logOptions => LogOptions

/-- A value as a document. -/
def toNode : (w : Wire) → w.Value → Node
  | coin => Coin.toNode
  | coins => Coin.listNode
  | messageInfo => MessageInfo.toNode
  | createRequest => CreateRequest.toNode
  | contractResult => ContractResult.toNode
  | systemError => SystemError.toNode
  | response => Response.toNode
  | analysis => Analysis.toNode
  | metrics => Metrics.toNode
  | checksum => Checksum.toNode
  | prices => Prices.toNode
  | logOptions => LogOptions.toNode

/-- Reads a value. -/
def reader : (w : Wire) → Reader w.Value
  | coin => Coin.reader
  | coins => Coin.listReader
  | messageInfo => MessageInfo.reader
  | createRequest => CreateRequest.reader
  | contractResult => ContractResult.reader
  | systemError => SystemError.reader
  | response => Response.reader
  | analysis => Analysis.reader
  | metrics => Metrics.reader
  | checksum => Checksum.reader
  | prices => Prices.reader .json
  | logOptions => LogOptions.reader .json

/-- The bytes in a value. A checksum is no byte member: it is a list of numbers. -/
def payloads : (w : Wire) → w.Value → List Bytes
  | createRequest, r => r.code :: r.initMsg :: r.salt.toList
  | contractResult, r => r.payloads
  | systemError, e => e.payloads
  | response, r => r.payloads
  | _, _ => []

/-- The texts that a document of a type holds for bytes. -/
def spelled : Wire → Node → List String
  | createRequest => CreateRequest.spelled
  | contractResult => ContractResult.spelled
  | systemError => SystemError.spelled
  | response => Response.spelled
  | _ => fun _ => []

/-- All values of all types are read back, with far fewer levels than there may be. -/
theorem readsBack (w : Wire) (x : w.Value) : ReadsBack w.reader w.toNode nestingLimit x := by
  cases w with
  | coin => exact (Coin.readsBack x).mono (by decide)
  | coins => exact (Coin.list_readsBack x).mono (by decide)
  | messageInfo => exact (MessageInfo.readsBack x).mono (by decide)
  | createRequest => exact (CreateRequest.readsBack x).mono (by decide)
  | contractResult => exact (ContractResult.readsBack x).mono (by decide)
  | systemError => exact (SystemError.readsBack x).mono (by decide)
  | response => exact (Response.readsBack x).mono (by decide)
  | analysis => exact (Analysis.readsBack x).mono (by decide)
  | metrics => exact (Metrics.readsBack x).mono (by decide)
  | checksum => exact (Checksum.readsBack x).mono (by decide)
  | prices => exact (Prices.readsBack x).mono (by decide)
  | logOptions => exact (LogOptions.readsBack x).mono (by decide)

/-- The texts in a document that has been accepted are those of the bytes in the value. -/
theorem spelled_eq (w : Wire) {d : Nat} {n : Node} {x : w.Value} (h : w.reader d n = some x) :
    w.spelled n = (w.payloads x).map Base64.encode := by
  cases w with
  | createRequest => exact CreateRequest.spelled_eq h
  | contractResult => exact ContractResult.spelled_eq h
  | systemError => exact SystemError.spelled_eq h
  | response => exact Response.spelled_eq h
  | _ => rfl

/-- Every value of every type is read back from what is written for it. Whatever bytes are
    accepted for a value, the texts they hold for its byte members are the ones that are written
    for the bytes in the value. -/
theorem round_trips (w : Wire) :
    (∀ x : w.Value, w.reader.ofJson? (Json.write (w.toNode x)) = some x) ∧
    ∀ (b : Bytes) (x : w.Value), w.reader.ofJson? b = some x →
      ∃ n, Json.read? b = some n ∧ w.spelled n = (w.payloads x).map Base64.encode := by
  constructor
  · intro x
    rcases w.readsBack x nestingLimit (Nat.le_refl _) with ⟨hread, hwithin⟩
    rw [ofJson?, Json.read?_write hwithin, Option.bind_some, hread]
  · intro b x h
    rcases Option.bind_eq_some_iff.mp h with ⟨n, hn, hx⟩
    exact ⟨n, hn, w.spelled_eq hx⟩

/-- A request with its members in another order, one of them unknown, and without a salt. -/
theorem round_trips_of_request :
    let b := Utf8.encode
      ("\x7b\"label\":\"l\",\"init_msg\":\"AQI=\",\"x\":[1.5]," ++
        "\"wasm_code\":\"\\u0041A==\",\"creator\":\"c\"\x7d")
    let r : CreateRequest := ⟨"c", [0], [1, 2], none, "l", false, none⟩
    CreateRequest.reader.ofJson? b = some r ∧
      ∃ n, Json.read? b = some n ∧ CreateRequest.spelled n = ["AA==", "AQI="] := by
  intro b r
  have h : CreateRequest.reader.ofJson? b = some r := by decide +kernel
  have hspelled := (round_trips .createRequest).2 b r h
  exact ⟨h, hspelled⟩

end Wire

end ContractHost
