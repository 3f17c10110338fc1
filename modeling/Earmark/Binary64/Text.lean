import Earmark.Binary64
import Earmark.Decimal.Text

/-!
Floating-point numbers as text: with six decimals, with the fewest digits that read back, with
fifteen digits, and reading.
-/

namespace Earmark.Binary64

open Earmark.Text
open scoped Earmark.Whole

/-- Six decimals, halves of the exact value to the even neighbour. -/
def toFixed : Binary64 → String
  | .finite neg m e =>
    let (n, d) := scale m 1 e
    let scaled := roundQuotient .toEven (n * 10 ^ (6 : Nat)) d
    let fraction := Nat.repr (scaled % 10 ^ (6 : Nat))
    (if neg then "-" else "") ++ Nat.repr (scaled / 10 ^ (6 : Nat)) ++ "." ++
      Decimal.zeros (6 - fraction.length) ++ fraction
  | .infinity neg => if neg then "-inf" else "inf"
  | .nan => "nan"

/-- The digits of a number on a decimal grid: `coeff · 10 ^ exp`. -/
structure Digits where
  coeff : Nat
  exp : Int
  deriving DecidableEq, Repr

/-- The place of the leading digit of `m · 2 ^ e`, for positive `m`. -/
def leadingPlace (m : Nat) (e : Int) : Int :=
  let (n, d) := scale m 1 e
  if d ≤ n then digitCount (n / d) - 1
  else
    -- the count of digits of `10 ^ k · n / d` for a `k` that leaves at least one
    let k := digitCount d
    (digitCount (n * 10 ^ k / d) : Int) - 1 - k

/-- Whether reading the digits gives `m · 2 ^ e` back. -/
def readsBack (m : Nat) (e : Int) (digits : Digits) : Bool :=
  ofScientific false digits.coeff digits.exp == .finite false m e

/--
Of the two points of the grid with `count` digits beside `m · 2 ^ e`, the nearer one that reads
back. Below a power of two only the farther one may.
-/
def digitsOfCount? (m : Nat) (e : Int) (count : Nat) : Option Digits :=
  let exp := leadingPlace m e - (count - 1)
  let (n, d) := scale m 1 e
  let (n, d) := if 0 ≤ exp then (n, d * 10 ^ exp.toNat) else (n * 10 ^ (-exp).toNat, d)
  let near := roundQuotient .toEven n d
  let far := if near = n / d then near + 1 else near - 1
  [⟨near, exp⟩, ⟨far, exp⟩].find? (readsBack m e)

/-- The fewest digits that read back as `m · 2 ^ e`; seventeen always do. -/
def shortestDigits (m : Nat) (e : Int) : Digits :=
  ((List.range 17).findSome? fun k => digitsOfCount? m e (k + 1)).getD ⟨m, e⟩

/-- How digits are written in place or with an exponent. -/
structure Format where
  /-- The greatest number of digits before the point of a number in place. -/
  widest : Int
  /-- Whether a single digit before an exponent gets a point and a zero. -/
  point : Bool
  deriving DecidableEq, Repr

/-- Writes digits without the zeros at their end: in place from `0.0001` up to the widest number,
and with an exponent of at least two digits otherwise. -/
def Format.write (format : Format) (digits : Digits) : String :=
  let text := (Nat.repr digits.coeff).toList
  let bare := (text.reverse.dropWhile (· == '0')).reverse
  let place := digits.exp + text.length
  if -4 < place ∧ place ≤ format.widest then
    if place ≤ 0 then "0." ++ Decimal.zeros (-place).toNat ++ String.ofList bare
    else
      let whole := bare.take place.toNat
      let fraction := bare.drop place.toNat
      String.ofList whole ++ Decimal.zeros (place.toNat - whole.length) ++ "." ++
        (if fraction = [] then "0" else String.ofList fraction)
  else
    let power := place - 1
    let exponent := Nat.repr power.natAbs
    let fraction :=
      if 1 < bare.length then "." ++ String.ofList (bare.drop 1)
      else if format.point then ".0"
      else ""
    String.ofList (bare.take 1) ++ fraction ++ "e" ++ (if power < 0 then "-" else "+") ++
      Decimal.zeros (2 - exponent.length) ++ exponent

/-- Numbers up to sixteen digits before the point are written in place. -/
def shortest : Format := ⟨16, false⟩

/-- The fewest digits that read back. -/
def toShortest : Binary64 → String
  | .finite neg m e =>
    (if neg then "-" else "") ++
      (if m = 0 then "0.0" else shortest.write (shortestDigits m e))
  | .infinity neg => if neg then "-inf" else "inf"
  | .nan => "nan"

/-- The nearest point to `m · 2 ^ e` of the grid with `count` digits, halves away from zero. -/
def nearestDigits (m : Nat) (e : Int) (count : Nat) : Digits :=
  let exp := leadingPlace m e - (count - 1)
  let (n, d) := scale m 1 e
  let (n, d) := if 0 ≤ exp then (n, d * 10 ^ exp.toNat) else (n * 10 ^ (-exp).toNat, d)
  ⟨roundQuotient .awayFromZero n d, exp⟩

/-- Numbers up to fifteen digits before the point are written in place. -/
def fifteen : Format := ⟨15, true⟩

/-- Fifteen digits; zero has no sign. -/
def toFifteen : Binary64 → String
  | .finite neg m e =>
    if m = 0 then "0.0"
    else (if neg then "-" else "") ++ fifteen.write (nearestDigits m e 15)
  | .infinity neg => if neg then "-Inf" else "Inf"
  | .nan => "NaN"

def ofLiteral (literal : Literal) : Binary64 :=
  ofScientific literal.neg literal.coeff literal.exp

/-- Reads a number in ASCII, or the name of a special value. -/
def ofChars? (cs : List Char) : Option Binary64 :=
  let (neg, rest) := takeSign cs
  let name := String.ofList (lowerAscii rest)
  if name = "inf" ∨ name = "infinity" then some (.infinity neg)
  else if name = "nan" then some .nan
  else ofLiteral <$> readUnsigned? neg rest

/-- Reads a number with grouping underscores and digits of any script. -/
def ofText? (s : String) : Option Binary64 := numberChars? s >>= ofChars?

end Earmark.Binary64
