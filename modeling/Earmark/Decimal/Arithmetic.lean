import Earmark.Decimal.Basic

/-!
Sums, differences and products of decimals, kept to 28 significant digits with halves going to the
even neighbour, and rounding to a fixed number of places.
-/

namespace Earmark

open scoped Earmark.Whole

/-- Where a value halfway between two neighbours goes. -/
inductive Ties
  | toEven
  | awayFromZero
  deriving DecidableEq, Repr

/-- The integer nearest to `n / d`. -/
def roundQuotient (ties : Ties) (n d : Nat) : Nat :=
  let q := n / d
  let r := n % d
  if 2 * r < d then q
  else if d < 2 * r then q + 1
  else match ties with
    | .awayFromZero => q + 1
    | .toEven => if q % 2 = 0 then q else q + 1

namespace Decimal

/-- The number of significant digits that arithmetic keeps. -/
def precision : Nat := 28

/-- The greatest place a leading digit may have. -/
def maxExponent : Int := 999999

/-- The least exponent of a result, that of the last digit of the smallest subnormal number. -/
def minExponent : Int := -999999 - (precision - 1)

/-- Drops the digits below place `exp` of `coeff · 10 ^ (exp - drop)`. -/
def dropDigits (ties : Ties) (coeff drop : Nat) : Nat := roundQuotient ties coeff (10 ^ drop)

/--
Rounds an exact result to the precision. A result that gains a digit by rounding up gives its last
zero away again.
-/
def round (neg : Bool) (coeff : Nat) (exp : Int) : Except Fault Decimal :=
  if coeff = 0 then
    .ok (.finite neg 0 (min (max exp minExponent) maxExponent))
  else
    let least := exp + digitCount coeff - precision
    if maxExponent - (precision - 1) < least then .error .tooLarge
    else
      let floor := max least minExponent
      if floor ≤ exp then .ok (.finite neg coeff exp)
      else if exp + digitCount coeff < floor then .ok (.finite neg 0 floor)
      else
        let kept := dropDigits .toEven coeff (floor - exp).toNat
        if digitCount kept ≤ precision then .ok (.finite neg kept floor)
        else if maxExponent - (precision - 1) < floor + 1 then .error .tooLarge
        else .ok (.finite neg (kept / 10) (floor + 1))

/-- Keeps as many digits of a payload, the last ones, as arithmetic keeps. -/
def shortenPayload : Decimal → Decimal
  | .nan neg signalling payload => .nan neg signalling (payload % 10 ^ precision)
  | d => d

/-- Not-a-number as the result of an operation: the first operand that is one, if it is quiet. -/
def propagate (a b : Decimal) : Except Fault Decimal :=
  if a.isSignalling || b.isSignalling then .error .undefinedResult
  else .ok (shortenPayload (if a.isNaN then a else b))

/--
Adds two numbers of which neither is zero and of which the first has the greater exponent. A second
one too small to reach the digits that are kept counts as a single unit far below them.
-/
def addAligned (na : Bool) (a : Nat) (ea : Int) (nb : Bool) (b : Nat) (eb : Int) :
    Except Fault Decimal :=
  let far := ea + min (-1) ((digitCount a : Int) - precision - 2)
  let (b, eb) := if digitCount b + eb - 1 < far then (1, far) else (b, eb)
  let sum := signed na (a * 10 ^ (ea - eb).toNat) + signed nb b
  round (sum < 0) sum.natAbs eb

/-- Adds two finite numbers; a sum of zero is negative only when both are. -/
def addFinite (na : Bool) (a : Nat) (ea : Int) (nb : Bool) (b : Nat) (eb : Int) :
    Except Fault Decimal :=
  let least := min ea eb
  if a = 0 ∧ b = 0 then round (na && nb) 0 least
  else if a = 0 then
    let exp := max least (eb - precision - 1)
    round nb (b * 10 ^ (eb - exp).toNat) exp
  else if b = 0 then
    let exp := max least (ea - precision - 1)
    round na (a * 10 ^ (ea - exp).toNat) exp
  else if eb ≤ ea then addAligned na a ea nb b eb
  else addAligned nb b eb na a ea

def add (a b : Decimal) : Except Fault Decimal :=
  if a.isNaN || b.isNaN then propagate a b
  else match a, b with
    | .infinity na, .infinity nb => if na = nb then .ok a else .error .undefinedResult
    | .infinity _, _ => .ok a
    | _, .infinity _ => .ok b
    | .finite na a ea, .finite nb b eb => addFinite na a ea nb b eb
    | _, _ => .error .undefinedResult

def sub (a b : Decimal) : Except Fault Decimal :=
  if a.isNaN || b.isNaN then propagate a b else add a b.negate

def mul (a b : Decimal) : Except Fault Decimal :=
  if a.isNaN || b.isNaN then propagate a b
  else match a, b with
    | .infinity na, .infinity nb => .ok (.infinity (na != nb))
    | .infinity na, .finite nb c _ =>
      if c = 0 then .error .undefinedResult else .ok (.infinity (na != nb))
    | .finite na c _, .infinity nb =>
      if c = 0 then .error .undefinedResult else .ok (.infinity (na != nb))
    | .finite na a ea, .finite nb b eb => round (na != nb) (a * b) (ea + eb)
    | _, _ => .error .undefinedResult

/-- The sum of a list of numbers, added from the left onto zero to the cent. -/
def sum (xs : List Decimal) : Except Fault Decimal := xs.foldlM add zero

/--
Rounds to two places, halves away from zero. The result must be finite and keep to the precision;
not-a-number passes through unless it signals.
-/
def toCents : Decimal → Except Fault Decimal
  | .nan neg signalling payload =>
    if signalling then .error .undefinedResult else .ok (shortenPayload (.nan neg false payload))
  | .infinity _ => .error .undefinedResult
  | .finite neg coeff exp =>
    if coeff = 0 then .ok (.finite neg 0 (-2))
    else if (precision : Int) < exp + 2 + digitCount coeff then .error .undefinedResult
    else if -2 ≤ exp then .ok (.finite neg (coeff * 10 ^ (exp + 2).toNat) (-2))
    else if exp + digitCount coeff < -2 then .ok (.finite neg 0 (-2))
    else
      let kept := dropDigits .awayFromZero coeff (-2 - exp).toNat
      if precision < digitCount kept then .error .undefinedResult
      else .ok (.finite neg kept (-2))

end Decimal

end Earmark
