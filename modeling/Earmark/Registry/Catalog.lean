import Earmark.Registry.Client

/-!
A registry that serves the catalog.
-/

namespace Earmark.Registry

/-- What the registry shows at a path: a status and a document. -/
def page? : List String → Option (Nat × Json)
  | ["health"] => some (200, .object [("status", .text "ok")])
  | ["merchants"] =>
    some (200, .object [("merchants", .array (Directory.catalog.map Merchant.toDocument))])
  | ["merchants", id] =>
    match Directory.ofList Directory.catalog id with
    | .ok m => some (200, m.toDocument)
    | .error _ => some (404, .object [("detail", .text "merchant not found")])
  | _ => none

/-- What the registry answers to an address. -/
def respond (address : String) : Except Failure (Nat × Json) := do
  let address ← Http.Address.ofText address
  .ok ((Http.resolve page? address.servedPath).getD
    (404, .object [("detail", .text "Not Found")]))

/-- The registry as a client asks it: the path that it asks for is taken for an address. -/
def catalog (path : String) : Reply :=
  match respond path with
  | .ok (status, document) => .answered status (.document document)
  | .error failure => .failed failure

end Earmark.Registry
