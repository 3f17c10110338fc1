import Earmark.Http.Endpoint
import Earmark.Http.Forms
import Earmark.Http.Views

/-!
The service over HTTP. A request is routed, its parts are read, and what the service makes of it is
shown or reported.

A refusal of the domain has a status of its own. Any other failure is a fault of the service; where
payments are judged it is reported as a document, elsewhere as plain text and without the caller's
mark. What was done before a failure is kept.
-/

namespace Earmark

/-- The status that reports a failure, if it belongs to the domain. -/
def Failure.status? (failure : Failure) : Option Nat :=
  match failure with
  | .intentNotFound .. | .escrowNotFound .. | .milestoneNotFound .. | .merchantNotFound _
  | .walletNotFound _ => some 404
  | .policy _ | .amount .. | .clawbackAmount .. => some 422
  | .registryTimeout _ | .registryStatus _ | .registryUnreachable _ | .registryData _ => some 503
  | _ => if failure.isDomain then some 409 else none

namespace Http

/-- What a caller is told about a failure of the domain. -/
def publicReason (failure : Failure) : String :=
  match failure with
  | .registryTimeout _ | .registryStatus _ | .registryUnreachable _ | .registryData _ =>
    "Merchant directory unavailable"
  | _ => failure.message

/-- The response to what the service did not foresee. -/
def crash : Response := { status := 500, report := .text "Internal Server Error" }

/-- The response to a request of which parts are refused. It shows the values that are at fault, so
it can be sent only if all numbers in them are finite and all texts have an encoding. -/
def refuse (faults : List Refusal) : Response :=
  if faults.all fun fault => fault.value.isFinite && fault.value.isEncodable then
    { status := 422, report := .refusals faults }
  else crash

def deny (status : Nat) (reason : String) : Response :=
  { status, report := .document (View.detail reason) }

/-- The response to a failure, or to nothing foreseen. -/
def reportFailure (failure : Failure) : Response :=
  match failure.status? with
  | some status => deny status (publicReason failure)
  | none => crash

/-- A document is sent with null in the place of numbers that are not finite. -/
def send (status : Nat) (document : Json) : Response :=
  { status, report := .document document.finitePart }

variable {b : Backend} {α : Type}

/-- Runs an operation and shows its result. -/
def answer (status : Nat) (op : Service b Json) : StateM (World b) Response := do
  match ← op.run with
  | .ok document => return send status document
  | .error failure => return reportFailure failure

/-- Runs an operation that nothing in the domain refuses, and shows its result. -/
def present (status : Nat) (op : Service b Json) : StateM (World b) Response := do
  match ← op.run with
  | .ok document => return send status document
  | .error _ => return crash

/-- Answers an accepted reading, and refuses another one. -/
def answerTo (reading : Reading α) (serve : α → StateM (World b) Response) :
    StateM (World b) Response :=
  match reading with
  | .accepted a => serve a
  | .refused faults => return refuse faults

/-- The document that a request brings, if it brings any. -/
def bodyOf (r : Request) : Except Json.Fault (Option Json) :=
  match r.content with
  | none | some (.text "") => .ok none
  | some content => some <$> content.read

/-- Reads the body of a request; `absent` is what no body counts as. -/
def withBody (r : Request) (rule : Rule α) (absent : Reading α)
    (serve : α → StateM (World b) Response) : StateM (World b) Response :=
  match bodyOf r with
  | .ok none => answerTo absent serve
  | .ok (some document) => answerTo (rule ["body"] document) serve
  | .error .malformed => return refuse [{ place := [], fault := .notJson, value := .null }]
  | .error (.tooManyDigits _) | .error .tooDeep | .error (.undecodable _) =>
    return deny 400 "There was an error parsing the body"

/-- A body that must be there. -/
def requireBody (r : Request) (rule : Rule α) (serve : α → StateM (World b) Response) :
    StateM (World b) Response :=
  withBody r rule (.refused [{ place := ["body"], fault := .missing, value := .null }]) serve

/-- A body that may be left out, or be null. -/
def allowBody (r : Request) (rule : Rule α) (default : α)
    (serve : α → StateM (World b) Response) : StateM (World b) Response :=
  withBody r rule.orNull (.accepted none) fun form => serve (form.getD default)

/-- The parameters behind the question mark, as texts. Of a repeated one the last counts. -/
def queryOf (r : Request) : Rule.Fields :=
  { place := ["query"], fields := r.query.reverse.map fun (key, value) => (key, .text value) }

def userOf (r : Request) : Reading String := (queryOf r).required "user_id" Rule.text

def showWallet (user : String) : Service b Json := do
  return View.wallet user (← Service.available user) (← Service.locked user)

/-- Judges a payment. A failure that is none of the domain's is told as a document. -/
def answerPayment (config : Config) (now : Time) (traceId : String) (form : PaymentForm) :
    StateM (World b) Response := do
  let request : PaymentRequest :=
    { user := form.user, merchant := form.merchant, amount := .decimal form.amount
      intentId := form.intentId, proof := form.proof, emergency := form.emergency
      requestId := traceId, requestedAt := now }
  match ← (Service.pay config now request).run with
  | .error failure =>
    return if failure.isDomain then reportFailure failure else deny 500 "Internal server error"
  | .ok result =>
    match View.payment result with
    | .ok document => return send 200 document
    | .error failure => return reportFailure failure

/-- What an endpoint makes of a request. -/
def serve (config : Config) (now : Time) (r : Request) :
    Endpoint → StateM (World b) Response
  | .health =>
    return send 200 (.object [("status", .text "ok"), ("service", .text LogEntry.service)])
  | .metrics => return { status := 200, report := .counters }
  | .openWallet => requireBody r WalletForm.rule fun form => answer 201 do
    Service.openWallet form.user (.decimal form.balance)
    showWallet form.user
  | .wallet user => answer 200 (showWallet user)
  | .createIntent => requireBody r IntentForm.rule fun form => answer 201 do
    let policy ← Service.check form.policy.toPolicy
    let intent ← Service.createIntent config now form.user form.text policy
    Service.check (View.intent intent)
  | .listIntents => answerTo (userOf r) fun user => present 200 do
    Service.check (View.intents user (← Service.listIntents user))
  | .intent id => answer 200 do Service.check (View.intent (← Service.getIntent id))
  | .cancelIntent id => answer 200 do
    let released ← Service.cancelIntent id
    return View.cancellation (← Service.getIntent id) released
  | .pay => requireBody r PaymentForm.rule (answerPayment config now (r.traceId.getD ""))
  | .history =>
    answerTo (Prod.mk <$> userOf r <*> (queryOf r).optional "limit" 50 historyLimit)
      fun (user, limit) => present 200 do
        return View.history user (← Service.history user (some limit))
  | .createEscrow => requireBody r EscrowForm.rule fun form => answer 201 do
    let specs := form.milestones.map MilestoneForm.toSpec
    let escrow ← Service.createEscrow config now form.user specs form.title form.intentId
    Service.check (View.escrow escrow)
  | .listEscrows => answerTo (userOf r) fun user => present 200 do
    Service.check (View.escrows user (← Service.listEscrows user))
  | .escrow id => answer 200 do Service.check (View.escrow (← Service.getEscrow id))
  | .releaseMilestone escrowId milestoneId => allowBody r ReleaseForm.rule {} fun form =>
    answer 200 do
      return View.release
        (← Service.releaseMilestone config now escrowId milestoneId form.proof form.merchantId)
  | .clawBack escrowId => allowBody r ClawbackForm.rule {} fun form => answer 200 do
    let part := form.part.map Numeral.decimal
    Service.check (View.clawback (← Service.clawBack config now escrowId form.reason part))
  | .reputation user => present 200 do
    return View.reputation (← Service.reputation config user)
  | .recordEvent user => requireBody r EventForm.rule fun form => present 201 do
    return View.event (← Service.recordEvent config now user form.kind form.description)
  | .summary user => present 200 do return View.summary (← Service.summary user)

/-- Gives the caller's mark back on every response but a crash. -/
def mark (r : Request) (response : Response) : Response :=
  match response.report with
  | .text _ => response
  | _ => { response with traceId := r.traceId }

/-- Leaves the body out where the request asks for none. -/
def dropBody (r : Request) (response : Response) : Response :=
  if r.method = .head then { response with report := .text "" } else response

/-- What a route makes of a request. -/
def answerRoute (config : Config) (now : Time) (r : Request) :
    Route → StateM (World b) Response
  | .found endpoint => serve config now r endpoint
  | .wrongMethod => return deny 405 "Method Not Allowed"
  | .unknown => return deny 404 "Not Found"

/-- Handles a request. -/
def handle (config : Config) (now : Time) (r : Request) : StateM (World b) Response := do
  return dropBody r (mark r (← answerRoute config now r (.of r.method r.path)))

end Http

end Earmark
