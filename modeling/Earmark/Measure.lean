import Earmark.Failure

/-!
Numbers in the form in which they were stated. A whole number is kept as one, so it is shown without
a fraction.
-/

namespace Earmark

/-- A whole number, or one with a fraction. -/
inductive Measure
  | whole (n : Int)
  | real (x : Binary64)
  deriving DecidableEq, Repr

namespace Measure

/-- Whether the number is not at most zero. -/
def isPositive : Measure → Bool
  | .whole n => 0 < n
  | .real x => !x.le .zero

def isZero : Measure → Bool
  | .whole n => n == 0
  | .real x => x.compare? .zero == some .eq

/-- The nearest floating-point number; a whole number beyond all of them has none. -/
def toFloat : Measure → Except Failure Binary64
  | .real x => .ok x
  | .whole n =>
    match Binary64.ofInt n with
    | .infinity _ => .error .outOfRange
    | x => .ok x

def toJson : Measure → Json
  | .whole n => .int n
  | .real x => .float x

def ofJson? : Json → Option Measure
  | .int n => some (.whole n)
  | .float x => some (.real x)
  | _ => none

/-- The number as messages show it. -/
def shown (m : Measure) : String := m.toJson.shown

theorem ofJson?_toJson (m : Measure) : ofJson? m.toJson = some m := by
  cases m <;> rfl

end Measure

end Earmark
