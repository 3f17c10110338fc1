import Earmark.Text.Blank
import Earmark.Text.Digit

/-!
Number literals: `[+-]digits[.digits][e[+-]digits]`, with at least one digit before the exponent.
-/

namespace Earmark.Text

/-- What a number literal says: `± coeff · 10 ^ exp`. -/
structure Literal where
  neg : Bool
  coeff : Nat
  exp : Int
  deriving DecidableEq, Repr

/-- The digits at the head of a text and what follows them. -/
def takeDigits (cs : List Char) : List Nat × List Char :=
  ((cs.takeWhile Char.isDigit).filterMap asciiDigit?, cs.dropWhile Char.isDigit)

/-- The sign at the head of a text and what follows it. -/
def takeSign : List Char → Bool × List Char
  | '-' :: rest => (true, rest)
  | '+' :: rest => (false, rest)
  | cs => (false, cs)

/-- An exponent that ends the text. -/
def readExponent? : List Char → Option Int
  | [] => some 0
  | c :: rest =>
    if c = 'e' ∨ c = 'E' then
      let (neg, rest) := takeSign rest
      match takeDigits rest with
      | ([], _) => none
      | (digits, []) => some (if neg then -(ofDigits digits : Int) else ofDigits digits)
      | (_, _ :: _) => none
    else none

/-- Reads an unsigned literal that ends the text. -/
def readUnsigned? (neg : Bool) (cs : List Char) : Option Literal :=
  let (whole, rest) := takeDigits cs
  let (fraction, rest) := match rest with
    | '.' :: rest => takeDigits rest
    | _ => ([], rest)
  if whole ++ fraction = [] then none
  else (readExponent? rest).map fun exp =>
    { neg, coeff := ofDigits (whole ++ fraction), exp := exp - fraction.length }

/-- Reads a literal that is the whole text. -/
def readLiteral? (cs : List Char) : Option Literal :=
  let (neg, rest) := takeSign cs
  readUnsigned? neg rest

/-- ASCII lower case, for the names of special values. -/
def lowerAscii (cs : List Char) : List Char := cs.map Char.toLower

/-- Writes digits of all scripts in ASCII; no other character beyond ASCII may stand in a number. -/
def toAsciiDigits? (cs : List Char) : Option (List Char) :=
  cs.mapM fun c =>
    if c.toNat < 128 then some c
    else (digitValue? c).map fun d => Char.ofNat ('0'.toNat + d)

/-- Drops underscores, each of which must stand between two digits. -/
def dropSeparators? : List Char → Option (List Char)
  | [] => some []
  | '_' :: _ => none
  | c :: '_' :: d :: rest =>
    if c.isDigit && d.isDigit then (dropSeparators? (d :: rest)).map (c :: ·) else none
  | c :: rest => (dropSeparators? rest).map (c :: ·)

/-- White space that may surround a number: the separators of ASCII are none. -/
def isNumberBlank (c : Char) : Bool :=
  if c.toNat < 128 then c == ' ' || ('\t' ≤ c && c ≤ '\r') else isBlank c

/-- The characters between the white space around a number. -/
def bareNumber (s : String) : List Char :=
  ((s.toList.dropWhile isNumberBlank).reverse.dropWhile isNumberBlank).reverse

/-- The characters of a number with grouping underscores, brought to ASCII. -/
def numberChars? (s : String) : Option (List Char) :=
  toAsciiDigits? (bareNumber s) >>= dropSeparators?

/-- The digits of a whole number and its sign, and nothing else. -/
def wholeDigits? (s : String) : Option (Bool × List Nat) := do
  let (neg, rest) := takeSign (← numberChars? s)
  match takeDigits rest with
  | ([], _) => none
  | (digits, []) => some (neg, digits)
  | (_, _ :: _) => none

end Earmark.Text
