/-!
Text and its bytes in UTF-8. Reading never fails: a byte that begins no character, and the beginning
of a character that is not finished, each count as one replacement character.
-/

namespace Earmark.Text

/-- The bytes of a text in UTF-8. -/
def utf8 (s : String) : List UInt8 := s.toUTF8.toList

/-- What stands for bytes that are no text. -/
def replacement : Char := '\ufffd'

/-- The text of code points, with the replacement character for those that are no character. -/
def ofPoints (points : List Nat) : String :=
  String.ofList (points.map fun point =>
    if point.isValidChar then Char.ofNat point else replacement)

/-- A character of which some bytes are read. -/
structure Unfinished where
  /-- How many bytes are still to come. -/
  owed : Nat
  /-- What the bytes so far spell. -/
  value : Nat
  /-- The least byte that may come next. -/
  least : Nat := 0x80
  /-- The greatest byte that may come next. -/
  greatest : Nat := 0xbf
  deriving DecidableEq, Repr

/-- What a byte begins, if it begins a character of several bytes. -/
def Unfinished.ofByte? (b : Nat) : Option Unfinished :=
  if 0xc2 ≤ b ∧ b ≤ 0xdf then some { owed := 1, value := b - 0xc0 }
  else if b = 0xe0 then some { owed := 2, value := 0, least := 0xa0 }
  else if b = 0xed then some { owed := 2, value := 0xd, greatest := 0x9f }
  else if 0xe1 ≤ b ∧ b ≤ 0xef then some { owed := 2, value := b - 0xe0 }
  else if b = 0xf0 then some { owed := 3, value := 0, least := 0x90 }
  else if b = 0xf4 then some { owed := 3, value := 4, greatest := 0x8f }
  else if 0xf1 ≤ b ∧ b ≤ 0xf3 then some { owed := 3, value := b - 0xf0 }
  else none

/-- The characters that a byte ends between characters, and what it begins. -/
def beginChar (b : Nat) : List Char × Option Unfinished :=
  if b < 0x80 then ([Char.ofNat b], none)
  else match Unfinished.ofByte? b with
    | some unfinished => ([], some unfinished)
    | none => ([replacement], none)

/-- The characters that a byte ends, and what is then unfinished. -/
def readByte (b : Nat) : Option Unfinished → List Char × Option Unfinished
  | none => beginChar b
  | some u =>
    if u.least ≤ b ∧ b ≤ u.greatest then
      let value := 64 * u.value + (b - 0x80)
      if u.owed ≤ 1 then ([Char.ofNat value], none)
      else ([], some { owed := u.owed - 1, value })
    else
      let (chars, unfinished) := beginChar b
      (replacement :: chars, unfinished)

def readUtf8 (unfinished : Option Unfinished) : List UInt8 → List Char
  | [] => if unfinished.isSome then [replacement] else []
  | b :: rest =>
    let (chars, unfinished) := readByte b.toNat unfinished
    chars ++ readUtf8 unfinished rest

/-- The text of bytes in UTF-8. -/
def ofUtf8 (bytes : List UInt8) : String := String.ofList (readUtf8 none bytes)

end Earmark.Text
