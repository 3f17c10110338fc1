import Earmark.Http.Message

/-!
The endpoints of the service: which path and method leads to which.
-/

namespace Earmark.Http

inductive Endpoint
  | health
  | metrics
  | openWallet
  | wallet (user : String)
  | createIntent
  | listIntents
  | intent (id : String)
  | cancelIntent (id : String)
  | pay
  | history
  | createEscrow
  | listEscrows
  | escrow (id : String)
  | releaseMilestone (escrowId milestoneId : String)
  | clawBack (escrowId : String)
  | reputation (user : String)
  | recordEvent (user : String)
  | summary (user : String)
  deriving DecidableEq, Repr

namespace Endpoint

/-- The endpoints of a versioned path, each with its method. -/
def ofVersioned : List String → List (Method × Endpoint)
  | ["wallets"] => [(.post, .openWallet)]
  | ["wallets", user] => [(.get, .wallet user)]
  | ["intents"] => [(.post, .createIntent), (.get, .listIntents)]
  | ["intents", id] => [(.get, .intent id)]
  | ["intents", id, "cancel"] => [(.post, .cancelIntent id)]
  | ["transactions", "validate"] => [(.post, .pay)]
  | ["transactions"] => [(.get, .history)]
  | ["escrows"] => [(.post, .createEscrow), (.get, .listEscrows)]
  | ["escrows", id] => [(.get, .escrow id)]
  | ["escrows", id, "milestones", milestone, "release"] =>
    [(.post, .releaseMilestone id milestone)]
  | ["escrows", id, "clawback"] => [(.post, .clawBack id)]
  | ["reputation", user] => [(.get, .reputation user)]
  | ["reputation", user, "events"] => [(.post, .recordEvent user)]
  | ["users", user, "summary"] => [(.get, .summary user)]
  | _ => []

/-- The endpoints of a path, if it has any. -/
def ofSegments? (path : List String) : Option (List (Method × Endpoint)) :=
  let endpoints := match path with
    | ["health"] => [(.get, .health)]
    | ["metrics"] => [(.get, .metrics)]
    | "v1" :: rest => ofVersioned rest
    | _ => []
  if endpoints.isEmpty then none else some endpoints

end Endpoint

/-- Where a request leads. -/
inductive Route
  | found (endpoint : Endpoint)
  | wrongMethod
  | unknown
  deriving DecidableEq, Repr

def Route.of (method : Method) (path : String) : Route :=
  match resolve Endpoint.ofSegments? path with
  | none => .unknown
  | some endpoints =>
    match endpoints.lookup method with
    | some endpoint => .found endpoint
    | none => .wrongMethod

end Earmark.Http
