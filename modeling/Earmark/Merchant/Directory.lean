import Earmark.Merchant.Document

/-!
Directories of merchants, and the catalog that is used unless another one is given.
-/

namespace Earmark

/-- Finds a merchant by its id, or says why not. -/
abbrev Directory := String → Except Failure Merchant

namespace Directory

/-- The number that an id is, if it is one. -/
def number? : Json → Option Decimal
  | .int n => some (.ofInt n)
  | .bool b => some (.ofNat b.toNat)
  | .float x => some x.toDecimal
  | _ => none

/-- Whether two ids are one key: equal texts, or numbers of one value. Not-a-number is no other's
key. -/
def sameId (a b : Json) : Bool :=
  match a, b with
  | .text a, .text b => a == b
  | .unpaired a, .unpaired b => a == b
  | .null, .null => true
  | a, b =>
    match number? a, number? b with
    | some a, some b => !a.isNaN && !b.isNaN && Decimal.compareNumbers a b == .eq
    | _, _ => false

/-- Whether an id can be a key; lists and objects cannot. -/
def isKey : Json → Bool
  | .array _ | .object _ => false
  | _ => true

/-- Adds a merchant; one with the same id is replaced in its place. -/
def insert (merchants : List Merchant) (m : Merchant) : List Merchant :=
  if merchants.any fun other => sameId other.id m.id then
    merchants.map fun other => if sameId other.id m.id then m else other
  else merchants ++ [m]

/-- The merchants of a list, the last one of an id in the place of the first. -/
def entries (merchants : List Merchant) : Except Failure (List Merchant) :=
  if merchants.all (isKey ·.id) then .ok (merchants.foldl insert []) else .error .wrongKind

/-- The merchant of a list that has an id. -/
def lookUp (merchants : List Merchant) (id : Json) : Except Failure Merchant := do
  let known ← entries merchants
  if isKey id then
    Failure.require (.merchantNotFound id.shown) (known.find? fun m => sameId m.id id)
  else .error .wrongKind

def ofList (merchants : List Merchant) : Directory := fun id => lookUp merchants (.text id)

/-- A merchant of the catalog; coordinates are in ten-thousandths and scores in hundredths. -/
def listed (id name code : String) (category : Category) (label city region : String)
    (lat lng : Nat) (tier : Int) (certified : Bool) (score : Nat) (tags : List String) : Merchant :=
  { id := .text id, name := .text name, code, category, label := .text label, city := .text city
    region := .text region, latitude := .ofScientific false lat (-4)
    longitude := .ofScientific false lng (-4), tier, certified
    riskScore := .ofScientific false score (-2), tags := normalizeTags tags }

def catalog : List Merchant :=
  [listed "MRC001" "Bookworm Paradise" "5942" .books "Book Store" "Chennai" "Tamil Nadu"
     130827 802707 1 true 5 ["textbooks", "novels", "stationery"],
   listed "MRC002" "Saravana Bhavan" "5812" .food "Restaurant" "Chennai" "Tamil Nadu"
     130569 802425 1 true 8 ["meals", "beverages", "snacks"],
   listed "MRC003" "Metro Supermart" "5411" .grocery "Supermarket" "Mumbai" "Maharashtra"
     190760 728777 1 true 6 ["groceries", "dairy", "vegetables", "packaged-food"],
   listed "MRC004" "TechZone Electronics" "5732" .electronics "Electronics Store" "Bengaluru"
     "Karnataka" 129716 775946 2 true 12 ["laptops", "phones", "accessories", "cables"],
   listed "MRC005" "Healing Touch Pharmacy" "5912" .medical "Pharmacy" "Delhi" "Delhi"
     286139 772090 2 true 4 ["medicines", "healthcare", "supplements"],
   listed "MRC006" "MixMart" "5999" .mixed "Mixed-Category Retail" "Chennai" "Tamil Nadu"
     130878 802785 2 false 35 ["books", "food", "stationery", "beverages"],
   listed "MRC007" "Apollo Medical Center" "8099" .medical "Hospital" "Hyderabad" "Telangana"
     173850 784867 3 true 3 ["consultation", "diagnostics", "surgery"],
   listed "MRC008" "EduLearn Institute" "8299" .education "Educational Institution" "Pune"
     "Maharashtra" 185204 738567 2 true 5 ["tuition", "courses", "workshops"]]

end Directory

end Earmark
