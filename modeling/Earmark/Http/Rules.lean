import Earmark.Amount
import Earmark.Http.Reading

/-!
The rules by which the parts of requests are read: texts, words, decimals, whole numbers, flags and
floating-point numbers, with the limits that they keep.

Numbers may come as text. A decimal with limited digits is refused only if it breaks the limit both
as it is written and without its last zeros.
-/

namespace Earmark.Http.Rule

open scoped Earmark.Whole

variable {α : Type}

/-- A text of at least so many characters. -/
def text (least : Nat := 0) : Rule String := ofCheck fun j =>
  match j with
  | .text s => if s.length < least then .error .textTooShort else .ok s
  | _ => .error .notText

/-- A word of a vocabulary. -/
def word (ofWord? : String → Option α) : Rule α := ofCheck fun j =>
  match j with
  | .text s => (ofWord? s).elim (.error .notAWord) .ok
  | _ => .error .notAWord

/-- A limit that a number keeps. -/
inductive Limit (α : Type)
  | above (a : α)
  | atLeast (a : α)
  | atMost (a : α)

/-- What is wrong with a number that does not keep a limit; one that does not compare keeps none. -/
def Limit.fault? (order : α → α → Option Ordering) (x : α) : Limit α → Option Fault
  | .above a => if order x a = some .gt then none else some .notAbove
  | .atLeast a => if order x a = some .gt ∨ order x a = some .eq then none else some .notAtLeast
  | .atMost a => if order x a = some .lt ∨ order x a = some .eq then none else some .notAtMost

/-- Checks the limits in their order. -/
def within (order : α → α → Option Ordering) (limits : List (Limit α)) (x : α) : Except Fault α :=
  match limits.findSome? (Limit.fault? order x) with
  | some fault => .error fault
  | none => .ok x

def decimalValue : Json → Except Fault Decimal
  | .text s => (Decimal.ofText? s).elim (.error .decimalText) .ok
  | .unpaired _ => .error .decimalText
  | .int n => .ok (.ofInt n)
  | .float x => (Decimal.ofText? x.toShortest).elim (.error .decimalText) .ok
  | .null | .bool _ | .array _ | .object _ => .error .notADecimal

/-- How many digits a decimal has when it is written out, and how many of them behind the point. -/
def writtenDigits (coeff : Nat) (exp : Int) : Nat × Nat :=
  if 0 ≤ exp then (digitCount coeff + exp.toNat, 0)
  else (max (digitCount coeff) exp.natAbs, exp.natAbs)

/-- Moves the last zeros of a coefficient into the exponent. -/
def dropZeros (coeff : Nat) (exp : Int) : Nat × Int :=
  if h : coeff = 0 then (0, 0)
  else if coeff % 10 = 0 then dropZeros (coeff / 10) (exp + 1)
  else (coeff, exp)
  termination_by coeff
  decreasing_by omega

/-- How many digits an amount may have, and how many of them behind the point. -/
structure Digits where
  total : Nat
  places : Nat

/-- Amounts have at most twelve digits before the point and two behind it. -/
def moneyDigits : Digits := ⟨14, 2⟩

def digitFault? (allowed : Digits) (coeff : Nat) (exp : Int) : Option Fault :=
  let (digits, places) := writtenDigits coeff exp
  let (leastCoeff, leastExp) := dropZeros coeff exp
  let (leastDigits, leastPlaces) := writtenDigits leastCoeff leastExp
  let whole := allowed.total - allowed.places
  if allowed.total < digits ∧ allowed.total < leastDigits then some .tooManyDigits
  else if allowed.places < places ∧ allowed.places < leastPlaces then some .tooManyPlaces
  else if whole < digits - places ∧ whole < leastDigits - leastPlaces then some .tooManyWholeDigits
  else none

/-- A finite decimal within limits and, where they are given, with so many digits. -/
def decimal (allowed : Option Digits) (limits : List (Limit Decimal)) : Rule Decimal :=
  ofCheck fun j => do
    let d ← decimalValue j
    match d with
    | .finite _ coeff exp =>
      match allowed.bind (digitFault? · coeff exp) with
      | some fault => .error fault
      | none => within (fun a b => some (Decimal.compareNumbers a b)) limits d
    | _ => .error .notFinite

/-- An amount of money. -/
def money (limits : List (Limit Decimal)) : Rule Decimal := decimal (some moneyDigits) limits

/-- Drops zeros and underscores behind a zero, which itself is kept if no other digit follows. -/
def dropZerosBehind? (last : Char) : List Char → Option (List Char)
  | [] => some [last]
  | c :: rest =>
    if c = '0' ∨ c = '_' then dropZerosBehind? c rest
    else if c.isDigit then some (c :: rest)
    else if c = '.' then some (last :: c :: rest)
    else none

/-- Drops the zeros in front of digits. -/
def dropFirstZeros? : List Char → Option (List Char)
  | [] => none
  | c :: rest =>
    if c = '0' then dropZerosBehind? c rest
    else if c.isDigit then some (c :: rest)
    else none

/-- Drops a point with zeros behind it. -/
def dropFraction? (cs : List Char) : Option (List Char) :=
  match cs.dropWhile (· != '.') with
  | [] => some cs
  | [_] => none
  | _ :: zeros => if zeros.all (· == '0') then some (cs.takeWhile (· != '.')) else none

/-- The digits of a whole number in ASCII, without zeros in front; behind a point there may be
zeros. -/
def wholeDigits? (cs : List Char) : Option (List Nat) := do
  let cs ← dropFirstZeros? cs >>= dropFraction? >>= Text.dropSeparators?
  cs.mapM Text.asciiDigit?

/-- The greatest number of digits of a whole number that is read from text, with its sign. -/
def maxWholeDigits : Nat := 4300

def wholeOfText (s : String) : Except Fault Int :=
  let (neg, rest) := Text.takeSign (Text.bareNumber s)
  match wholeDigits? rest with
  | none => .error .wholeText
  | some digits =>
    if maxWholeDigits < digits.length + neg.toNat then .error .wholeTooLarge
    else .ok (Decimal.signed neg (Text.ofDigits digits))

/-- The whole number that a floating-point number is, if it has less than 64 bits. -/
def wholeOfFloat (x : Binary64) : Except Fault Int :=
  match x.truncate? with
  | none => .error .notFinite
  | some n =>
    if x.compare? (.ofInt n) != some .eq then .error .wholeOfFraction
    else if n.natAbs < 2 ^ (63 : Nat) then .ok n
    else .error .wholeTooLarge

def wholeValue : Json → Except Fault Int
  | .int n => .ok n
  | .bool b => .ok b.toNat
  | .float x => wholeOfFloat x
  | .text s => wholeOfText s
  | .unpaired _ => .error .wholeText
  | .null | .array _ | .object _ => .error .notAWhole

/-- A whole number within limits. -/
def whole (limits : List (Limit Int)) : Rule Int := ofCheck fun j => do
  within (fun a b => some (compare a b)) limits (← wholeValue j)

/-- The texts that stand for a flag, in any case of their letters. -/
def flagOfText? (s : String) : Option Bool :=
  let plain := String.ofList (Text.lowerAscii s.toList)
  if ["1", "on", "t", "true", "y", "yes"].contains plain then some true
  else if ["0", "off", "f", "false", "n", "no"].contains plain then some false
  else none

def flagOfWhole (n : Int) : Except Fault Bool :=
  if n = 0 then .ok false
  else if n = 1 then .ok true
  else if -2 ^ (63 : Nat) ≤ n ∧ n < 2 ^ (63 : Nat) then .error .flagText
  else .error .notAFlag

def flag : Rule Bool := ofCheck fun j =>
  match j with
  | .bool b => .ok b
  | .text s => (flagOfText? s).elim (.error .flagText) .ok
  | .unpaired _ => .error .flagText
  | .int n => flagOfWhole n
  | .float x =>
    match wholeOfFloat x with
    | .ok n => flagOfWhole n
    | .error _ => .error .notAFlag
  | .null | .array _ | .object _ => .error .notAFlag

/-- Drops underscores, of which no two stand together and none stands at an end. -/
def dropUnderscores? : List Char → Option (List Char)
  | [] => some []
  | ['_'] => none
  | '_' :: '_' :: _ => none
  | c :: rest => (dropUnderscores? rest).map fun cs => if c = '_' then cs else c :: cs

/-- A floating-point number in ASCII: white space may stand around it, or else underscores in it. -/
def floatOfText? (s : String) : Option Binary64 :=
  let grouped := if s.toList.head? = some '_' then none else dropUnderscores? s.toList
  (Binary64.ofChars? (Text.bareNumber s)).or (grouped.bind Binary64.ofChars?)

def floatValue : Json → Except Fault Binary64
  | .float x => .ok x
  | .int n =>
    match Binary64.ofInt n with
    | .infinity _ => .error .notAFloat
    | x => .ok x
  | .bool b => .ok (.ofNat b.toNat)
  | .text s => (floatOfText? s).elim (.error .floatText) .ok
  | .unpaired _ => .error .floatText
  | .null | .array _ | .object _ => .error .notAFloat

/-- A floating-point number within limits. -/
def float (limits : List (Limit Binary64)) : Rule Binary64 := ofCheck fun j => do
  within Binary64.compare? limits (← floatValue j)

end Earmark.Http.Rule
