import Earmark.Json.Basic
import Earmark.Text.Units

/-!
Writing JSON, with or without spaces, and with or without characters outside ASCII. Quotes,
backslashes and control characters are always escaped.
-/

namespace Earmark.Json

open Earmark.Text

/-- How documents are written. -/
structure Layout where
  /-- What stands behind a comma and behind a colon. -/
  gap : String
  /-- Whether characters outside ASCII are escaped. -/
  asciiOnly : Bool
  deriving DecidableEq, Repr

/-- Without spaces, and with all characters as they are. -/
def Layout.compact : Layout := ⟨"", false⟩

/-- With spaces, and in ASCII. -/
def Layout.ascii : Layout := ⟨" ", true⟩

/-- The escape of a code unit. -/
def writeUnit (unit : Nat) : List Char := '\\' :: 'u' :: hexDigits 4 unit

/-- The letter that stands for a control character in its escape. -/
def letterOf? : Char → Option Char
  | '\x08' => some 'b'
  | '\x0c' => some 'f'
  | '\n' => some 'n'
  | '\r' => some 'r'
  | '\t' => some 't'
  | _ => none

def writeChar (l : Layout) (c : Char) : List Char :=
  if c = '\x22' ∨ c = '\\' then ['\\', c]
  else if c.toNat < 0x20 then
    match letterOf? c with
    | some letter => ['\\', letter]
    | none => writeUnit c.toNat
  else if l.asciiOnly ∧ 0x7f ≤ c.toNat then (splitPair c.toNat).flatMap writeUnit
  else [c]

/-- A code point of a text; half of a pair is written by its number. -/
def writePoint (l : Layout) (point : Nat) : List Char :=
  if point.isValidChar then writeChar l (Char.ofNat point) else writeUnit point

def writeText (l : Layout) (s : String) : String :=
  "\"" ++ String.ofList (s.toList.flatMap (writeChar l)) ++ "\""

def writeFloat : Binary64 → String
  | .infinity neg => if neg then "-Infinity" else "Infinity"
  | .nan => "NaN"
  | x => x.toShortest

mutual

def write (l : Layout) : Json → String
  | .null => "null"
  | .bool b => if b then "true" else "false"
  | .int n => toString n
  | .float x => writeFloat x
  | .text s => writeText l s
  | .unpaired points => "\"" ++ String.ofList (points.flatMap (writePoint l)) ++ "\""
  | .array items => "[" ++ writeItems l items ++ "]"
  | .object fields => "\x7b" ++ writeFields l fields ++ "\x7d"

def writeItems (l : Layout) : List Json → String
  | [] => ""
  | [item] => write l item
  | item :: rest => write l item ++ "," ++ l.gap ++ writeItems l rest

def writeFields (l : Layout) : List (String × Json) → String
  | [] => ""
  | [(key, value)] => writeText l key ++ ":" ++ l.gap ++ write l value
  | (key, value) :: rest =>
    writeText l key ++ ":" ++ l.gap ++ write l value ++ "," ++ l.gap ++ writeFields l rest

end

end Earmark.Json
