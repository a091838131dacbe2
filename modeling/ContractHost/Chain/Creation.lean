import ContractHost.Document.Json
import ContractHost.Document.Reader

/-!
# Creation Requests

What a contract asks for when it creates another one.

## Main definitions

* `CreateRequest`: A request.
* `CreateRequest.reader`, `CreateRequest.toNode`: A request as a document.
-/

namespace ContractHost

/-- A request to create a contract. -/
structure CreateRequest where
  creator : String
  code : Bytes
  initMsg : Bytes
  admin : Option String
  label : String
  /-- Whether the address is to depend on the salt rather than on the order of creation. -/
  isCreate2 : Bool
  salt : Option Bytes
deriving DecidableEq

namespace CreateRequest

/-- A request as a document. -/
def toNode (r : CreateRequest) : Node :=
  .object
    [("creator", .text r.creator), ("wasm_code", .text (Base64.encode r.code)),
      ("init_msg", .text (Base64.encode r.initMsg)),
      ("admin_addr", .optional (r.admin.map .text)), ("label", .text r.label),
      ("is_create2", .bool r.isCreate2),
      ("salt", .optional (r.salt.map fun b => .text (Base64.encode b)))]

/-- Reads a request. -/
def reader : Reader CreateRequest := fun depth n => do
  let f ← Reader.fields
    ["creator", "wasm_code", "init_msg", "admin_addr", "label", "is_create2", "salt"] depth n
  some
    { creator := ← f.get? "creator" Reader.text
      code := ← f.get? "wasm_code" Reader.base64
      initMsg := ← f.get? "init_msg" Reader.base64
      admin := ← f.getD "admin_addr" none (Reader.optionOf Reader.text)
      label := ← f.get? "label" Reader.text
      isCreate2 := ← f.getD "is_create2" false Reader.bool
      salt := ← f.getD "salt" none (Reader.optionOf Reader.base64) }

end CreateRequest

end ContractHost
