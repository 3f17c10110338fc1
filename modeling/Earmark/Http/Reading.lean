import Earmark.Json.Reader

/-!
Reading documents against what they should hold. A reading goes on behind a fault, so that it
reports every part of a document that is refused; each part is refused for one fault.
-/

namespace Earmark.Http

/-- What is wrong with a part of a request. -/
inductive Fault
  | missing
  | notJson
  | notAnObject
  | notAList
  | tooFewItems
  | notText
  | textTooShort
  | notADecimal
  | decimalText
  | notFinite
  | tooManyDigits
  | tooManyPlaces
  | tooManyWholeDigits
  | notAWhole
  | wholeText
  | wholeOfFraction
  | wholeTooLarge
  | notAFlag
  | flagText
  | notAFloat
  | floatText
  | notAWord
  | notAbove
  | notAtLeast
  | notAtMost
  deriving DecidableEq, Repr

def Fault.word : Fault → String
  | .missing => "missing"
  | .notJson => "json_invalid"
  | .notAnObject => "model_attributes_type"
  | .notAList => "list_type"
  | .tooFewItems => "too_short"
  | .notText => "string_type"
  | .textTooShort => "string_too_short"
  | .notADecimal => "decimal_type"
  | .decimalText => "decimal_parsing"
  | .notFinite => "finite_number"
  | .tooManyDigits => "decimal_max_digits"
  | .tooManyPlaces => "decimal_max_places"
  | .tooManyWholeDigits => "decimal_whole_digits"
  | .notAWhole => "int_type"
  | .wholeText => "int_parsing"
  | .wholeOfFraction => "int_from_float"
  | .wholeTooLarge => "int_parsing_size"
  | .notAFlag => "bool_type"
  | .flagText => "bool_parsing"
  | .notAFloat => "float_type"
  | .floatText => "float_parsing"
  | .notAWord => "enum"
  | .notAbove => "greater_than"
  | .notAtLeast => "greater_than_equal"
  | .notAtMost => "less_than_equal"

/-- A part of a request that is refused: the names that lead to it, its fault, and the value that is
at fault; where a part is missing, that is what it is missing from. -/
structure Refusal where
  place : List String
  fault : Fault
  value : Json
  deriving Repr

/-- The outcome of a reading: a value, or everything that was refused. -/
inductive Reading (α : Type)
  | accepted (a : α)
  | refused (faults : List Refusal)
  deriving Repr

namespace Reading

variable {α β : Type}

def map (f : α → β) : Reading α → Reading β
  | .accepted a => .accepted (f a)
  | .refused faults => .refused faults

/-- Two readings in a row, of which the second is made in any case. -/
def seq (f : Reading (α → β)) (r : Reading α) : Reading β :=
  match f, r with
  | .accepted f, .accepted a => .accepted (f a)
  | .accepted _, .refused faults => .refused faults
  | .refused faults, .accepted _ => .refused faults
  | .refused faults, .refused more => .refused (faults ++ more)

instance : Applicative Reading where
  pure := .accepted
  map := map
  seq f r := seq f (r ())

end Reading

/-- How a value is read at its place. -/
abbrev Rule (α : Type) := List String → Json → Reading α

namespace Rule

variable {α β : Type}

/-- A rule that takes a value or refuses it for a fault of its own. -/
def ofCheck (check : Json → Except Fault α) : Rule α := fun place j =>
  match check j with
  | .ok a => .accepted a
  | .error fault => .refused [{ place, fault, value := j }]

/-- Null, or what a rule takes. -/
def orNull (rule : Rule α) : Rule (Option α) := fun place j =>
  match j with
  | .null => .accepted none
  | j => some <$> rule place j

/-- Reads items by a rule, each at its number. -/
def items (rule : Rule α) (place : List String) : Nat → List Json → Reading (List α)
  | _, [] => .accepted []
  | k, j :: rest => List.cons <$> rule (place ++ [toString k]) j <*> items rule place (k + 1) rest

/-- A list of at least so many items. -/
def list (rule : Rule α) (least : Nat := 0) : Rule (List α) := fun place j =>
  match j with
  | .array js =>
    if js.length < least then .refused [{ place, fault := .tooFewItems, value := j }]
    else items rule place 0 js
  | _ => .refused [{ place, fault := .notAList, value := j }]

/-- The fields of an object and the place where it stands. -/
structure Fields where
  place : List String
  fields : List (String × Json)

/-- An object whose fields are read by a form; fields that the form does not name are ignored. -/
def form (read : Fields → Reading α) : Rule α := fun place j =>
  match j with
  | .object fields => read { place, fields }
  | _ => .refused [{ place, fault := .notAnObject, value := j }]

namespace Fields

/-- A field that must be there. -/
def required (f : Fields) (key : String) (rule : Rule α) : Reading α :=
  match Json.find? key f.fields with
  | some j => rule (f.place ++ [key]) j
  | none =>
    .refused [{ place := f.place ++ [key], fault := .missing, value := .object f.fields }]

/-- A field that may be left out. -/
def optional (f : Fields) (key : String) (default : α) (rule : Rule α) : Reading α :=
  match Json.find? key f.fields with
  | some j => rule (f.place ++ [key]) j
  | none => .accepted default

end Fields

end Rule

end Earmark.Http
