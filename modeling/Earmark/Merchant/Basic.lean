import Earmark.Failure
import Earmark.Tags

/-!
Merchants. The registry does not promise that names and places are text, so they are kept as the
values that came; what reads them as text fails where they are not.
-/

namespace Earmark

structure Merchant where
  id : Json
  name : Json
  /-- The classification code of what the merchant sells. -/
  code : String
  category : Category
  label : Json
  city : Json
  region : Json
  latitude : Binary64
  longitude : Binary64
  /-- The tier of certification. -/
  tier : Int
  certified : Bool
  riskScore : Binary64
  /-- Normalised tags of what is on sale. -/
  tags : List String
  deriving Repr, Inhabited

namespace Merchant

def isMixed (m : Merchant) : Bool := m.category == .mixed

/-- The labels that classification codes stand for. -/
def codeLabels : List (String × List String) :=
  [("5942", ["books", "education", "stationery"]),
   ("5812", ["food", "restaurant", "beverages"]),
   ("5411", ["grocery", "food", "daily-essentials"]),
   ("5732", ["electronics", "technology"]),
   ("5912", ["medical", "healthcare", "pharmacy"]),
   ("5999", ["mixed", "general"]),
   ("8099", ["medical", "healthcare", "hospital"]),
   ("8299", ["education", "school", "training"])]

/-- The labels of the merchant's code, and its category. -/
def labels (m : Merchant) : List String := (codeLabels.lookup m.code).getD [] ++ [m.category.word]

end Merchant

/-- Whether `part` stands somewhere in `whole` without a gap. -/
def isPartOf (part : List Char) : List Char → Bool
  | [] => part.isEmpty
  | c :: rest => part.isPrefixOf (c :: rest) || isPartOf part rest

namespace Merchant

/-- Whether a label says what the merchant sells: one of its labels, or part of a tag, or a tag of
which it is part. -/
def sells (m : Merchant) (label : String) : Bool :=
  m.labels.contains label ||
    m.tags.any fun tag => isPartOf tag.toList label.toList || isPartOf label.toList tag.toList

/-- Those of the allowed labels that say what the merchant sells. -/
def overlap (allowed : List String) (m : Merchant) : List String := allowed.filter m.sells

end Merchant

end Earmark
