import Earmark.Binary64.Text
import Earmark.Text.Quoted
import Earmark.Text.Utf8

/-!
JSON values. Whole numbers and floating-point numbers are different values, and an object keeps its
keys in the order in which they first came.
-/

namespace Earmark

inductive Json
  | null
  | bool (b : Bool)
  | int (n : Int)
  | float (x : Binary64)
  | text (s : String)
  /-- A text in which half of a pair of code units stands by itself. It has no encoding. -/
  | unpaired (points : List Nat)
  | array (items : List Json)
  | object (fields : List (String × Json))
  deriving Repr, Inhabited

namespace Json

/-- The value of a key among the fields of an object. -/
def find? (key : String) (fields : List (String × Json)) : Option Json :=
  (fields.find? (·.1 == key)).map (·.2)

/-- Sets a key; a key that is there keeps its place. -/
def insert (key : String) (value : Json) (fields : List (String × Json)) : List (String × Json) :=
  if fields.any (·.1 == key) then
    fields.map fun field => if field.1 == key then (key, value) else field
  else fields ++ [(key, value)]

/-- Whether a value counts as true: not null, not false, not zero and not empty. -/
def truthy : Json → Bool
  | .null => false
  | .bool b => b
  | .int n => n != 0
  | .float x => x.isNaN || Binary64.compare? x .zero != some .eq
  | .text s => s != ""
  | .unpaired _ => true
  | .array items => !items.isEmpty
  | .object fields => !fields.isEmpty

mutual

/-- Whether all words, numbers and texts in a value are as asked. -/
def all (asked : Json → Bool) : Json → Bool
  | .array items => allItems asked items
  | .object fields => allFields asked fields
  | leaf => asked leaf

def allItems (asked : Json → Bool) : List Json → Bool
  | [] => true
  | item :: rest => all asked item && allItems asked rest

def allFields (asked : Json → Bool) : List (String × Json) → Bool
  | [] => true
  | (_, value) :: rest => all asked value && allFields asked rest

end

/-- Whether every floating-point number in a value is finite. -/
def isFinite (value : Json) : Bool :=
  value.all fun leaf => match leaf with
    | .float (.infinity _) | .float .nan => false
    | _ => true

/-- Whether every text in a value has an encoding. -/
def isEncodable (value : Json) : Bool :=
  value.all fun leaf => match leaf with
    | .unpaired _ => false
    | _ => true

mutual

/-- A value with null in the place of every number that is not finite. -/
def finitePart : Json → Json
  | .float (.infinity _) | .float .nan => .null
  | .array items => .array (itemsFinitePart items)
  | .object fields => .object (fieldsFinitePart fields)
  | value => value

def itemsFinitePart : List Json → List Json
  | [] => []
  | item :: rest => finitePart item :: itemsFinitePart rest

def fieldsFinitePart : List (String × Json) → List (String × Json)
  | [] => []
  | (key, value) :: rest => (key, finitePart value) :: fieldsFinitePart rest

end

mutual

/-- A value as it is shown inside another one, with text in quotes. -/
def quoted : Json → String
  | .null => "None"
  | .bool b => if b then "True" else "False"
  | .int n => toString n
  | .float x => x.toShortest
  | .text s => Text.quote s
  | .unpaired points => Text.quotePoints points
  | .array items => "[" ++ quotedItems items ++ "]"
  | .object fields => "\x7b" ++ quotedFields fields ++ "\x7d"

def quotedItems : List Json → String
  | [] => ""
  | [item] => quoted item
  | item :: rest => quoted item ++ ", " ++ quotedItems rest

def quotedFields : List (String × Json) → String
  | [] => ""
  | [(key, value)] => Text.quote key ++ ": " ++ quoted value
  | (key, value) :: rest => Text.quote key ++ ": " ++ quoted value ++ ", " ++ quotedFields rest

end

/-- A value as it is shown by itself: text without quotes. -/
def shown : Json → String
  | .text s => s
  | .unpaired points => Text.ofPoints points
  | value => quoted value

end Json

end Earmark
