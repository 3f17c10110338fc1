import Earmark.Http.Message
import Earmark.Measure
import Earmark.Merchant.Directory

/-!
The merchant registry as a client sees it. Whatever keeps a merchant from being read off a reply is
a failure of the registry, apart from faults that pass as they are: a value that is no text where
one is needed, a value without fields, a number out of range, and brackets nested too deep.
-/

namespace Earmark.Registry

/-- What comes of asking the registry. -/
inductive Reply
  | answered (status : Int) (content : Http.Content)
  | timedOut
  | unreachable (reason : String)
  /-- Nothing was asked. -/
  | failed (failure : Failure)
  deriving Repr

structure Client where
  /-- What comes of asking for a path. -/
  ask : String → Reply
  /-- How many seconds to wait for a reply; zero counts as not stated. -/
  timeout : Option Measure := none

def standardTimeout : Measure := .real (.ofNat 5)

/-- Whether a failure says that a document is no merchant. -/
def isDataFault : Failure → Bool
  | .missingKey _ | .unknownWord .. | .notAFloat _ | .notAWhole _ | .wholeOfNaN | .wholeTooLong _
  | .wrongKind | .malformedJson | .undecodable _ => true
  | _ => false

/-- Blames a fault of the data on the registry. -/
def blame {α : Type} : Except Failure α → Except Failure α
  | .ok a => .ok a
  | .error failure => .error (if isDataFault failure then .registryData failure else failure)

def documentOf (content : Http.Content) : Except Failure Json :=
  match content.read with
  | .ok document => .ok document
  | .error .malformed => .error .malformedJson
  | .error (.tooManyDigits count) => .error (.wholeTooLong count)
  | .error .tooDeep => .error .tooDeep
  | .error (.undecodable cause) => .error (.undecodable cause)

namespace Client

def patience (c : Client) : Measure :=
  match c.timeout with
  | some t => if t.isZero then standardTimeout else t
  | none => standardTimeout

/-- The status and the content of the reply to what is asked for at an address. -/
def fetch (c : Client) (address : String) : Except Failure (Int × Http.Content) := do
  match c.ask (← Http.Address.ofText address).plainPath with
  | .answered status content => .ok (status, content)
  | .timedOut => .error (.registryTimeout c.patience.shown)
  | .unreachable reason => .error (.registryUnreachable reason)
  | .failed failure => .error failure

/-- Only a status from 200 to 299 brings a document. -/
def readReply {α : Type} (status : Int) (content : Http.Content)
    (read : Json → Except Failure α) : Except Failure α :=
  if 200 ≤ status ∧ status < 300 then blame (documentOf content >>= read)
  else .error (.registryStatus status)

/-- The merchant with an id; a status of 404 says that there is none. -/
def get (c : Client) (id : String) : Except Failure Merchant := do
  let (status, content) ← c.fetch ("/merchants/" ++ id)
  if status = 404 then .error (.merchantNotFound id)
  else readReply status content Merchant.ofDocument

/-- The merchants of a document that lists them; one without a list lists none. -/
def merchantsOf : Json → Except Failure (List Merchant)
  | .object fields => do
    let items ← ((Json.find? "merchants" fields).getD (.array [])).members
    items.mapM Merchant.ofDocument
  | _ => .error .notAnObject

def listAll (c : Client) : Except Failure (List Merchant) := do
  let (status, content) ← c.fetch "/merchants"
  readReply status content merchantsOf

/-- The registry as a directory. -/
def directory (c : Client) : Directory := c.get

end Client

end Earmark.Registry
