import Earmark.Decimal.Basic
import Earmark.Text.Literal

/-!
Decimals as text. A number is written with its digits in place when its exponent is at most zero
and its leading digit stands no further than six places behind the point, and with an exponent
otherwise, so reading gives back the coefficient and the exponent.
-/

namespace Earmark.Decimal

open Earmark.Text

/-- Zeros in a row. -/
def zeros (n : Nat) : String := String.ofList (List.replicate n '0')

/-- Writes a coefficient and an exponent, the sign aside. -/
def unsignedText (coeff : Nat) (exp : Int) : String :=
  let digits := Nat.repr coeff
  let count := digits.length
  let place := exp + count
  if exp ≤ 0 ∧ -6 < place then
    if place ≤ 0 then "0." ++ zeros (-place).toNat ++ digits
    else if exp = 0 then digits
    else
      String.ofList (digits.toList.take place.toNat) ++ "." ++
        String.ofList (digits.toList.drop place.toNat)
  else
    let power := place - 1
    let mantissa :=
      if count = 1 then digits
      else String.ofList (digits.toList.take 1) ++ "." ++ String.ofList (digits.toList.drop 1)
    mantissa ++ "E" ++ (if power < 0 then "-" else "+") ++ Nat.repr power.natAbs

def toText : Decimal → String
  | .finite neg coeff exp => (if neg then "-" else "") ++ unsignedText coeff exp
  | .infinity neg => (if neg then "-" else "") ++ "Infinity"
  | .nan neg signalling payload =>
    (if neg then "-" else "") ++ (if signalling then "sNaN" else "NaN") ++
      (if payload = 0 then "" else Nat.repr payload)

instance : ToString Decimal := ⟨toText⟩

/-- The greatest place of a leading digit that a written number may have. -/
def maxWrittenPlace : Int := 999999999999999999

/-- The least exponent that a written number may have. -/
def minWrittenExponent : Int := -1999999999999999997

/-- Reads the digits behind the name of a not-a-number value. -/
def readPayload? (neg signalling : Bool) (cs : List Char) : Option Decimal :=
  match takeDigits cs with
  | (digits, []) => some (.nan neg signalling (ofDigits digits))
  | _ => none

/-- Reads a number in ASCII that may be infinite or not-a-number. -/
def ofChars? (cs : List Char) : Option Decimal :=
  let (neg, rest) := takeSign cs
  match lowerAscii rest with
  | 'i' :: 'n' :: 'f' :: tail =>
    if tail = [] ∨ tail = "inity".toList then some (.infinity neg) else none
  | 'n' :: 'a' :: 'n' :: tail => readPayload? neg false tail
  | 's' :: 'n' :: 'a' :: 'n' :: tail => readPayload? neg true tail
  | _ => do
    let literal ← readUnsigned? neg rest
    if maxWrittenPlace < literal.exp + digitCount literal.coeff - 1 then none
    else if literal.exp < minWrittenExponent then none
    else some (.finite literal.neg literal.coeff literal.exp)

/--
Reads a number with white space around it, underscores anywhere and digits of any script.
-/
def ofText? (s : String) : Option Decimal :=
  toAsciiDigits? ((strip s).toList.filter (· != '_')) >>= ofChars?

end Earmark.Decimal
