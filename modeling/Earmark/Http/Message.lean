import Earmark.Http.Address
import Earmark.Http.Reading

/-!
Requests and responses. A request is made by a call, which names an address.
-/

namespace Earmark.Http

/-- What a message carries: a document, or a text that may be one. -/
inductive Content
  | document (j : Json)
  | text (s : String)
  deriving Repr

/-- The document of a content. -/
def Content.read : Content → Except Json.Fault Json
  | .document j => .ok j
  | .text s => Json.parse s

inductive Method
  | get
  | post
  /-- Asks for a response without its body. -/
  | head
  | other (name : String)
  deriving DecidableEq, Repr

/-- Any case of a name is meant. -/
def Method.ofName (name : String) : Method :=
  match name.toUpper with
  | "GET" => .get
  | "POST" => .post
  | "HEAD" => .head
  | upper => .other upper

structure Request where
  method : Method
  path : String
  query : Parameters := []
  content : Option Content := none
  /-- The caller's mark of the request. -/
  traceId : Option String := none
  deriving Repr

/-- A request as its caller states it. -/
structure Call where
  method : Method
  address : String
  /-- Parameters in the place of those that the address brings. -/
  query : Option Parameters := none
  content : Option Content := none
  traceId : Option String := none
  deriving Repr

/-- Checks a document before it is sent. -/
def Content.check : Content → Except Failure Unit
  | .document j =>
    if !j.isFinite then .error .unsendable
    else if !j.isEncodable then .error .unencodable
    else .ok ()
  | .text _ => .ok ()

/-- The request that a call makes. The caller's mark must be in ASCII. -/
def Call.toRequest (c : Call) : Except Failure Request := do
  let address ← Address.ofText c.address
  if (c.traceId.getD "").toList.any fun char => 127 < char.toNat then .error .unencodable
  else if Address.maxLength < (c.query.getD []).writtenLength then .error .badAddress
  else
    c.content.forM Content.check
    .ok
      { method := c.method, path := address.servedPath
        query := c.query.getD (.ofQuery (address.query.getD [])), content := c.content
        traceId := c.traceId }

/-- What a response says. -/
inductive Report
  | document (j : Json)
  | text (s : String)
  /-- The parts of a request that were refused. -/
  | refusals (faults : List Refusal)
  /-- The counters, in a format of their own. -/
  | counters
  deriving Repr

structure Response where
  status : Nat
  report : Report
  /-- The caller's mark, given back. -/
  traceId : Option String := none
  deriving Repr

end Earmark.Http
