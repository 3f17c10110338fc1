import Earmark.Json.Basic
import Earmark.Text.Units

/-!
Reading JSON. Besides the standard forms, `NaN`, `Infinity` and `-Infinity` are numbers; of a
repeated key the last value counts; a number with a fraction or an exponent is a floating-point
number. Zeros among the first bytes tell an encoding in units of several bytes from UTF-8.
-/

namespace Earmark.Json

open Earmark.Text

/-- Why a text is not read as JSON. -/
inductive Fault
  | malformed
  /-- A whole number with more digits than are converted. -/
  | tooManyDigits (count : Nat)
  /-- More brackets open at once than are followed. -/
  | tooDeep
  /-- The bytes are no text in the encoding that they show. -/
  | undecodable (cause : Undecodable)
  deriving DecidableEq, Repr

/-- The greatest number of digits of a whole number that is converted from text. -/
def maxDigits : Nat := 4300

/-- How many brackets may be open at once. -/
def maxDepth : Nat := 970

def isSpace (c : Char) : Bool := c == ' ' || c == '\t' || c == '\n' || c == '\r'

def skipSpace (cs : List Char) : List Char := cs.dropWhile isSpace

def hexValue? (c : Char) : Option Nat :=
  if '0' ≤ c ∧ c ≤ '9' then some (c.toNat - '0'.toNat)
  else if 'a' ≤ c ∧ c ≤ 'f' then some (c.toNat - 'a'.toNat + 10)
  else if 'A' ≤ c ∧ c ≤ 'F' then some (c.toNat - 'A'.toNat + 10)
  else none

/-- The four hexadecimal digits of a code unit. -/
def readUnit? : List Char → Option (Nat × List Char)
  | a :: b :: c :: d :: rest => do
    let digits ← [a, b, c, d].mapM hexValue?
    some (digits.foldl (fun n digit => 16 * n + digit) 0, rest)
  | _ => none

/-- The code point of an escape that begins with a code unit, which takes the other half of a pair
with it, and what follows. -/
def joinEscapes (unit : Nat) (rest : List Char) : Nat × List Char :=
  match rest with
  | '\\' :: 'u' :: tail =>
    match readUnit? tail with
    | some (low, tail) =>
      match joinPair? unit low with
      | some point => (point, tail)
      | none => (unit, rest)
    | none => (unit, rest)
  | _ => (unit, rest)

/-- A text of code points. -/
def ofPoints (points : List Nat) : Json :=
  if points.all Nat.isValidChar then .text (Text.ofPoints points) else .unpaired points

def simpleEscape? : Char → Option Char
  | '\x22' => some '\x22'
  | '\\' => some '\\'
  | '/' => some '/'
  | 'b' => some '\x08'
  | 'f' => some '\x0c'
  | 'n' => some '\n'
  | 'r' => some '\r'
  | 't' => some '\t'
  | _ => none

/-- Reads the code points of a string behind its opening quote; `before` holds those that were read,
in reverse. -/
def readString (fuel : Nat) (before : List Nat) (cs : List Char) :
    Except Fault (List Nat × List Char) :=
  match fuel, cs with
  | 0, _ => .error .malformed
  | _, [] => .error .malformed
  | fuel + 1, c :: rest =>
    if c = '\x22' then .ok (before.reverse, rest)
    else if c = '\\' then
      match rest with
      | 'u' :: tail =>
        match readUnit? tail with
        | some (unit, tail) =>
          let (point, tail) := joinEscapes unit tail
          readString fuel (point :: before) tail
        | none => .error .malformed
      | e :: tail =>
        match simpleEscape? e with
        | some escaped => readString fuel (escaped.toNat :: before) tail
        | none => .error .malformed
      | [] => .error .malformed
    else if c.toNat < 0x20 then .error .malformed
    else readString fuel (c.toNat :: before) rest

/-- The digits of a whole number: a zero by itself, or digits that do not begin with one. -/
def readWhole? : List Char → Option (List Nat × List Char)
  | '0' :: rest => some ([0], rest)
  | cs =>
    match takeDigits cs with
    | ([], _) => none
    | (digits, rest) => some (digits, rest)

/-- A fraction, if at least one digit follows the point. -/
def readFraction (cs : List Char) : List Nat × List Char :=
  match cs with
  | '.' :: rest =>
    match takeDigits rest with
    | ([], _) => ([], cs)
    | (digits, rest) => (digits, rest)
  | _ => ([], cs)

/-- An exponent, if at least one digit follows its letter and sign. -/
def readPower (cs : List Char) : Option Int × List Char :=
  match cs with
  | c :: rest =>
    if c = 'e' ∨ c = 'E' then
      let (neg, rest) := takeSign rest
      match takeDigits rest with
      | ([], _) => (none, cs)
      | (digits, rest) =>
        (some (if neg then -(ofDigits digits : Int) else ofDigits digits), rest)
    else (none, cs)
  | [] => (none, cs)

/-- Reads a number behind its sign. -/
def readNumber (neg : Bool) (cs : List Char) : Except Fault (Json × List Char) :=
  match readWhole? cs with
  | none => .error .malformed
  | some (whole, rest) =>
    let (fraction, rest) := readFraction rest
    let (power, rest) := readPower rest
    if fraction = [] ∧ power = none then
      if maxDigits < whole.length then .error (.tooManyDigits whole.length)
      else .ok (.int (Decimal.signed neg (ofDigits whole)), rest)
    else
      let exp := power.getD 0 - fraction.length
      .ok (.float (Binary64.ofScientific neg (ofDigits (whole ++ fraction)) exp), rest)

/-- Reads a word or a number. -/
def readScalar (cs : List Char) : Except Fault (Json × List Char) :=
  match cs with
  | 'n' :: 'u' :: 'l' :: 'l' :: rest => .ok (.null, rest)
  | 't' :: 'r' :: 'u' :: 'e' :: rest => .ok (.bool true, rest)
  | 'f' :: 'a' :: 'l' :: 's' :: 'e' :: rest => .ok (.bool false, rest)
  | 'N' :: 'a' :: 'N' :: rest => .ok (.float .nan, rest)
  | 'I' :: 'n' :: 'f' :: 'i' :: 'n' :: 'i' :: 't' :: 'y' :: rest =>
    .ok (.float (.infinity false), rest)
  | '-' :: 'I' :: 'n' :: 'f' :: 'i' :: 'n' :: 'i' :: 't' :: 'y' :: rest =>
    .ok (.float (.infinity true), rest)
  | '-' :: rest => readNumber true rest
  | _ => readNumber false cs

mutual

/-- Reads a value in which `depth` more brackets may be open. Every step spends one unit of fuel, at
most two at a character. -/
def readValue (fuel depth : Nat) (cs : List Char) : Except Fault (Json × List Char) :=
  match fuel with
  | 0 => .error .malformed
  | fuel + 1 =>
    match cs, depth with
    | '\x22' :: rest, _ =>
      (readString (rest.length + 1) [] rest).map fun (points, rest) => (ofPoints points, rest)
    | '[' :: _, 0 => .error .tooDeep
    | '[' :: rest, depth + 1 =>
      match skipSpace rest with
      | ']' :: rest => .ok (.array [], rest)
      | rest => (readItems fuel depth rest).map fun (items, rest) => (.array items, rest)
    | '\x7b' :: _, 0 => .error .tooDeep
    | '\x7b' :: rest, depth + 1 =>
      match skipSpace rest with
      | '\x7d' :: rest => .ok (.object [], rest)
      | rest => (readFields fuel depth [] rest).map fun (fields, rest) => (.object fields, rest)
    | cs, _ => readScalar cs

/-- Reads the items of an array up to its closing bracket. -/
def readItems (fuel depth : Nat) (cs : List Char) : Except Fault (List Json × List Char) :=
  match fuel with
  | 0 => .error .malformed
  | fuel + 1 => do
    let (item, rest) ← readValue fuel depth cs
    match skipSpace rest with
    | ']' :: rest => .ok ([item], rest)
    | ',' :: rest =>
      let (items, rest) ← readItems fuel depth (skipSpace rest)
      .ok (item :: items, rest)
    | _ => .error .malformed

/-- Reads the fields of an object up to its closing brace. -/
def readFields (fuel depth : Nat) (fields : List (String × Json)) (cs : List Char) :
    Except Fault (List (String × Json) × List Char) :=
  match fuel with
  | 0 => .error .malformed
  | fuel + 1 =>
    match cs with
    | '\x22' :: rest => do
      let (key, rest) ← readString (rest.length + 1) [] rest
      match skipSpace rest with
      | ':' :: rest =>
        let (value, rest) ← readValue fuel depth (skipSpace rest)
        let fields := insert (Text.ofPoints key) value fields
        match skipSpace rest with
        | '\x7d' :: rest => .ok (fields, rest)
        | ',' :: rest => readFields fuel depth fields (skipSpace rest)
        | _ => .error .malformed
      | _ => .error .malformed
    | _ => .error .malformed

end

/-- Reads characters that hold one value and nothing else. -/
def readAll (cs : List Char) : Except Fault Json := do
  let (value, rest) ← readValue (2 * cs.length + 2) maxDepth (skipSpace cs)
  if skipSpace rest = [] then .ok value else .error .malformed

/-- The encoding that the zeros among the first bytes show; none shows UTF-8. -/
def unitsOf? : List UInt8 → Option UnitEncoding
  | [0, _] => some (.utf16 .highFirst)
  | [_, 0] => some (.utf16 .lowFirst)
  | a :: b :: c :: d :: _ =>
    if a = 0 then some (if b = 0 then .utf32 .highFirst else .utf16 .highFirst)
    else if b = 0 then some (if c = 0 ∧ d = 0 then .utf32 .lowFirst else .utf16 .lowFirst)
    else none
  | _ => none

/-- The characters that the bytes of a text stand for; in UTF-8 a mark of the byte order is dropped
from the front. -/
def charsOf (s : String) : Except Fault (List Char) :=
  let bytes := utf8 s
  match unitsOf? bytes with
  | some e => ((readEncoded e bytes).map String.toList).mapError .undecodable
  | none => .ok (match s.toList with
    | '\ufeff' :: rest => rest
    | cs => cs)

/-- Reads a text that holds one value and nothing else. -/
def parse (s : String) : Except Fault Json := charsOf s >>= readAll

end Earmark.Json
