import Earmark.Failure

/-!
Amounts of money: finite numbers with two places. Whatever number comes in is brought to the cent
once, halves away from zero, and refused when that takes more than 28 digits.
-/

namespace Earmark

/-- A number as a caller hands it over. -/
inductive Numeral
  | text (s : String)
  | whole (n : Int)
  | flag (b : Bool)
  | absent
  | decimal (d : Decimal)
  | float (x : Binary64)
  deriving Repr, Inhabited

namespace Numeral

/-- The number as messages show it. -/
def shown : Numeral → String
  | .text s => s
  | .whole n => toString n
  | .flag b => if b then "True" else "False"
  | .absent => "None"
  | .decimal d => d.toText
  | .float x => x.toShortest

/-- The exact value; a floating-point number keeps every binary digit. -/
def exact : Numeral → Except Failure Decimal
  | .text s => Failure.require (.arithmetic .undefinedResult) (Decimal.ofText? s)
  | .whole n => .ok (Decimal.ofInt n)
  | .flag b => .ok (Decimal.ofNat b.toNat)
  | .absent => .error .wrongKind
  | .decimal d => .ok d
  | .float x => .ok x.toDecimal

/-- The value of the text that shows the number. -/
def written (n : Numeral) : Except Failure Decimal :=
  Failure.require (.arithmetic .undefinedResult) (Decimal.ofText? n.shown)

end Numeral

/-- The amount of a decimal number, which messages show as `shown`. -/
def amountOf (shown : String) (d : Decimal) : Except Failure Decimal :=
  match d.toCents with
  | .error _ => .error (.amount shown .notToTheCent)
  | .ok cents => if cents.isFinite then .ok cents else .error (.amount shown .notFinite)

def Decimal.toAmount (d : Decimal) : Except Failure Decimal := amountOf d.toText d

/-- The amount of a number; a floating-point number counts as the text that shows it. -/
def Numeral.toAmount (n : Numeral) : Except Failure Decimal :=
  match n with
  | .absent => .error .wrongKind
  | .float x =>
    match Decimal.ofText? x.toShortest with
    | some d => amountOf n.shown d
    | none => .error (.amount n.shown .notToTheCent)
  | .text s =>
    match Decimal.ofText? s with
    | some d => amountOf s d
    | none => .error (.amount s .notToTheCent)
  | .whole k => amountOf n.shown (Decimal.ofInt k)
  | .flag b => amountOf n.shown (Decimal.ofNat b.toNat)
  | .decimal d => d.toAmount

/-- The part of an amount that a rate takes, brought to the cent. -/
def applyRate (amount rate : Decimal) : Except Failure Decimal := do
  let product ← Failure.ofDecimal (amount.mul rate)
  product.toAmount

end Earmark
