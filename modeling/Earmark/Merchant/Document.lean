import Earmark.Amount
import Earmark.Merchant.Basic

/-!
Merchants as the registry writes them. Reading takes the fields in a fixed order, so the first bad
one decides; writing a merchant and reading it again gives the same merchant.
-/

namespace Earmark

namespace Json

open Earmark.Text

/-- A floating-point number from a number or its text. -/
def toFloat : Json → Except Failure Binary64
  | .float x => .ok x
  | .int n =>
    match Binary64.ofInt n with
    | .infinity _ => .error .outOfRange
    | x => .ok x
  | .bool b => .ok (Binary64.ofNat b.toNat)
  | .text s => Failure.require (.notAFloat (.text s)) (Binary64.ofText? s)
  | .unpaired points => .error (.notAFloat (.unpaired points))
  | .null | .array _ | .object _ => .error .wrongKind

/-- A whole number from a number, whose fraction is cut off, or from its text. -/
def toWhole : Json → Except Failure Int
  | .int n => .ok n
  | .bool b => .ok b.toNat
  | .float .nan => .error .wholeOfNaN
  | .float x => Failure.require .outOfRange x.truncate?
  | .text s =>
    match wholeDigits? s with
    | some (neg, digits) =>
      if 4300 < digits.length then .error (.wholeTooLong digits.length)
      else .ok (Decimal.signed neg (ofDigits digits))
    | none => .error (.notAWhole (.text s))
  | .unpaired points => .error (.notAWhole (.unpaired points))
  | .null | .array _ | .object _ => .error .wrongKind

/-- The items of a list, the characters of a text or the keys of an object. -/
def members : Json → Except Failure (List Json)
  | .array items => .ok items
  | .text s => .ok (s.toList.map fun c => .text (String.singleton c))
  | .unpaired points => .ok (points.map fun point => .text (Text.ofPoints [point]))
  | .object fields => .ok (fields.map fun field => .text field.1)
  | .null | .bool _ | .int _ | .float _ => .error .wrongKind

/-- The members that are text; a member that is no text counts as blank if it is empty. -/
def tagTexts (members : List Json) : Except Failure (List String) :=
  members.foldr
    (fun item rest =>
      if !item.truthy then rest
      else match item with
        | .text s => (s :: ·) <$> rest
        | .unpaired points => (Text.ofPoints points :: ·) <$> rest
        | _ => .error .notText)
    (.ok [])

end Json


namespace Merchant

def ofDocument (document : Json) : Except Failure Merchant :=
  match document with
  | .object fields => do
    let get (key : String) : Except Failure Json :=
      Failure.require (.missingKey key) (Json.find? key fields)
    let optional (key : String) (default : Json) : Json := (Json.find? key fields).getD default
    let id ← get "merchant_id"
    let name ← get "name"
    let code ← get "mcc"
    let word ← get "category"
    let category ← word.toWord "MerchantCategory" Category.ofWord?
    let city ← get "city"
    let latitude ← get "lat" >>= Json.toFloat
    let longitude ← get "lng" >>= Json.toFloat
    let tier ← get "tier" >>= Json.toWhole
    let riskScore ← (optional "risk_score" (.float .zero)).toFloat
    let tags ← (optional "product_tags" (.array [])).members >>= Json.tagTexts
    .ok
      { id, name, code := code.shown, category, label := optional "category_label" word, city
        region := optional "region" (.text ""), latitude, longitude, tier
        certified := (optional "certified" (.bool false)).truthy, riskScore
        tags := normalizeTags tags }
  | _ => .error .wrongKind

def toDocument (m : Merchant) : Json :=
  .object
    [("merchant_id", m.id),
     ("name", m.name),
     ("mcc", .text m.code),
     ("category", .text m.category.word),
     ("category_label", m.label),
     ("city", m.city),
     ("region", m.region),
     ("lat", .float m.latitude),
     ("lng", .float m.longitude),
     ("tier", .int m.tier),
     ("certified", .bool m.certified),
     ("risk_score", .float m.riskScore),
     ("product_tags", .array (m.tags.map .text))]

end Merchant

end Earmark
