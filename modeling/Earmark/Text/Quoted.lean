import Earmark.Text.Printable

/-!
Text in quotes, as it is shown in messages: single quotes unless the text holds a single quote and
no double one, and escapes for what cannot be seen.
-/

namespace Earmark.Text

def hexDigits (width n : Nat) : List Char :=
  let digits := Nat.toDigits 16 n
  List.replicate (width - digits.length) '0' ++ digits

/-- A character of quoted text, inside the given quotation marks. -/
def quoteChar (mark c : Char) : List Char :=
  if c = mark ∨ c = '\\' then ['\\', c]
  else if c = '\t' then ['\\', 't']
  else if c = '\n' then ['\\', 'n']
  else if c = '\r' then ['\\', 'r']
  else if isPrintable c then [c]
  else if c.toNat < 0x100 then '\\' :: 'x' :: hexDigits 2 c.toNat
  else if c.toNat < 0x10000 then '\\' :: 'u' :: hexDigits 4 c.toNat
  else '\\' :: 'U' :: hexDigits 8 c.toNat

/-- The quotation mark that goes around characters. -/
def markFor (cs : List Char) : Char := if '\x27' ∈ cs ∧ '\x22' ∉ cs then '\x22' else '\x27'

def quote (s : String) : String :=
  let mark := markFor s.toList
  String.ofList (mark :: s.toList.flatMap (quoteChar mark) ++ [mark])

/-- A code point of quoted text; half of a pair is shown by its number. -/
def quotePoint (mark : Char) (point : Nat) : List Char :=
  if point.isValidChar then quoteChar mark (Char.ofNat point)
  else '\\' :: 'u' :: hexDigits 4 point

/-- Code points as quoted text. -/
def quotePoints (points : List Nat) : String :=
  let mark := markFor (points.map Char.ofNat)
  String.ofList (mark :: points.flatMap (quotePoint mark) ++ [mark])

end Earmark.Text
