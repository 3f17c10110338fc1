import Earmark.Decimal.Arithmetic

/-!
Binary floating-point numbers of 64 bits, as exact dyadic fractions: every operation computes the
exact result and rounds it once, halves to the even neighbour.
-/

namespace Earmark

open scoped Earmark.Whole

/--
A floating-point number; `finite neg m e` stands for `± m · 2 ^ e`, where `e` is at least -1074 and
`m` has 53 bits unless `e` is -1074.
-/
inductive Binary64
  | finite (neg : Bool) (m : Nat) (e : Int)
  | infinity (neg : Bool)
  | nan
  deriving DecidableEq, Repr, Inhabited

namespace Binary64

/-- The least exponent. -/
def minExponent : Int := -1074

/-- The greatest exponent. -/
def maxExponent : Int := 971

def zero : Binary64 := .finite false 0 minExponent

/-- `num · 2 ^ shift / den` as a fraction of whole numbers. -/
def scale (num den : Nat) (shift : Int) : Nat × Nat :=
  if 0 ≤ shift then (num * 2 ^ shift.toNat, den) else (num, den * 2 ^ (-shift).toNat)

/-- The exponent at which the fraction `num / den` has 53 bits before the point, or the least one. -/
def exponentOf (num den : Nat) : Int :=
  let guess : Int := (num.log2 : Int) - den.log2 - 53
  let scaled := scale num den (-guess)
  max (if scaled.2 * 2 ^ (53 : Nat) ≤ scaled.1 then guess + 1 else guess) minExponent

/-- The number `± m · 2 ^ e`, unless it is beyond the greatest one. -/
def bounded (neg : Bool) (m : Nat) (e : Int) : Binary64 :=
  if maxExponent < e then .infinity neg else .finite neg m e

/-- The number `± m · 2 ^ e` for a coefficient that rounding may have brought to `2 ^ 53`. -/
def ofRounded (neg : Bool) (m : Nat) (e : Int) : Binary64 :=
  if m = 2 ^ (53 : Nat) then bounded neg (2 ^ (52 : Nat)) (e + 1) else bounded neg m e

/-- The number nearest to the fraction `num / den`. -/
def ofFraction (neg : Bool) (num den : Nat) : Binary64 :=
  if num = 0 ∨ den = 0 then .finite neg 0 minExponent
  else
    let e := exponentOf num den
    let scaled := scale num den (-e)
    ofRounded neg (roundQuotient .toEven scaled.1 scaled.2) e

/-- The number nearest to `± coeff · 10 ^ exp`. -/
def ofScientific (neg : Bool) (coeff : Nat) (exp : Int) : Binary64 :=
  let place := exp + digitCount coeff
  if coeff = 0 ∨ place < -400 then .finite neg 0 minExponent
  else if 400 < place then .infinity neg
  else if 0 ≤ exp then ofFraction neg (coeff * 10 ^ exp.toNat) 1
  else ofFraction neg coeff (10 ^ (-exp).toNat)

def ofNat (n : Nat) : Binary64 := ofFraction false n 1

def ofInt (n : Int) : Binary64 := ofFraction (n < 0) n.natAbs 1

/-- The nearest floating-point number to a decimal one. -/
def ofDecimal : Decimal → Binary64
  | .finite neg coeff exp => ofScientific neg coeff exp
  | .infinity neg => .infinity neg
  | .nan .. => .nan

/-- The exact decimal value; not-a-number stays so. -/
def toDecimal : Binary64 → Decimal
  | .finite neg m e =>
    if m = 0 then .finite neg 0 0
    else if 0 ≤ e then .finite neg (m * 2 ^ e.toNat) 0
    else
      let twos := (List.range (-e).toNat).takeWhile fun k => m % 2 ^ (k + 1) = 0
      let m := m / 2 ^ twos.length
      let places := (-e).toNat - twos.length
      .finite neg (m * 5 ^ places) (-(places : Int))
  | .infinity neg => .infinity neg
  | .nan => .nan false false 0

def isNaN : Binary64 → Bool
  | .nan => true
  | _ => false

/-- The value in units of the smallest positive number. -/
def units (neg : Bool) (m : Nat) (e : Int) : Int :=
  Decimal.signed neg (m * 2 ^ (e - minExponent).toNat)

/-- Compares two numbers; not-a-number compares with nothing. -/
def compare? : Binary64 → Binary64 → Option Ordering
  | .nan, _ => none
  | _, .nan => none
  | .infinity a, .infinity b => some (if a = b then .eq else if a then .lt else .gt)
  | .infinity a, _ => some (if a then .lt else .gt)
  | _, .infinity b => some (if b then .gt else .lt)
  | .finite na ma ea, .finite nb mb eb => some (compare (units na ma ea) (units nb mb eb))

def lt (a b : Binary64) : Bool := compare? a b == some .lt

def le (a b : Binary64) : Bool := lt a b || compare? a b == some .eq

def negate : Binary64 → Binary64
  | .finite neg m e => .finite (!neg) m e
  | .infinity neg => .infinity (!neg)
  | .nan => .nan

/-- The number nearest to `n` units of the smallest positive number. -/
def ofUnits (n : Int) : Binary64 := ofFraction (n < 0) n.natAbs (2 ^ (1074 : Nat))

/-- Adds two numbers; a sum of zero is negative only when both are. -/
def add : Binary64 → Binary64 → Binary64
  | .nan, _ => .nan
  | _, .nan => .nan
  | .infinity a, .infinity b => if a = b then .infinity a else .nan
  | .infinity a, _ => .infinity a
  | _, .infinity b => .infinity b
  | .finite na ma ea, .finite nb mb eb =>
    if ma = 0 ∧ mb = 0 then .finite (na && nb) 0 minExponent
    else ofUnits (units na ma ea + units nb mb eb)

def sub (a b : Binary64) : Binary64 := add a b.negate

def mul : Binary64 → Binary64 → Binary64
  | .nan, _ => .nan
  | _, .nan => .nan
  | .infinity a, .infinity b => .infinity (a != b)
  | .infinity a, .finite b m _ => if m = 0 then .nan else .infinity (a != b)
  | .finite a m _, .infinity b => if m = 0 then .nan else .infinity (a != b)
  | .finite na ma ea, .finite nb mb eb =>
    let (n, d) := scale (ma * mb) 1 (ea + eb)
    ofFraction (na != nb) n d

/-- Divides by a number that is not zero. -/
def div : Binary64 → Binary64 → Binary64
  | .nan, _ => .nan
  | _, .nan => .nan
  | .infinity _, .infinity _ => .nan
  | .infinity a, .finite b _ _ => .infinity (a != b)
  | .finite a _ _, .infinity b => .finite (a != b) 0 minExponent
  | .finite na ma ea, .finite nb mb eb =>
    let (n, d) := scale ma mb (ea - eb)
    ofFraction (na != nb) n d

/-- The cosine of a number of small magnitude, from its power series. -/
def cos : Binary64 → Binary64
  | .finite _ m e =>
    let (n, d) := scale m 1 e
    let n : Int := n * n
    let d : Int := d * d
    -- Horner's rule on `1 - x²/(1·2)·(1 - x²/(3·4)·(1 - …))`, as a fraction
    let (p, q) := (List.range 20).foldr
      (fun k (p, q) =>
        let step : Int := (2 * k + 1) * (2 * k + 2) * d
        (step * q - n * p, step * q))
      ((1 : Int), (1 : Int))
    ofFraction (p < 0) p.natAbs q.natAbs
  | _ => .nan

/-- Half a turn in radians, to the nearest number. -/
def pi : Binary64 := .finite false 7074237752028440 (-51)

def radians (degrees : Binary64) : Binary64 := mul degrees (div pi (ofNat 180))

/-- The greater of two numbers, the first one when they do not compare. -/
def max (a b : Binary64) : Binary64 := if lt a b then b else a

/-- Cuts the fraction off; infinities and not-a-number have no whole part. -/
def truncate? : Binary64 → Option Int
  | .finite neg m e =>
    let (n, d) := scale m 1 e
    some (Decimal.signed neg (n / d))
  | _ => none

/-- Rounds to a number of decimal places, halves of the exact value to the even neighbour. -/
def roundPlaces (places : Nat) : Binary64 → Binary64
  | .finite neg m e =>
    let (n, d) := scale m 1 e
    ofFraction neg (roundQuotient .toEven (n * 10 ^ places) d) (10 ^ places)
  | x => x

end Binary64

end Earmark
