import Earmark.Text.Quoted
import Earmark.Text.Utf8

/-!
Text in units of two or four bytes: UTF-16 and UTF-32, with the high byte of a unit first or last.
-/

namespace Earmark.Text

/-- Which byte of a unit comes first. -/
inductive ByteOrder
  | highFirst
  | lowFirst
  deriving DecidableEq, Repr

/-- An encoding in units of several bytes. -/
inductive UnitEncoding
  | utf16 (order : ByteOrder)
  | utf32 (order : ByteOrder)
  deriving DecidableEq, Repr

namespace UnitEncoding

def order : UnitEncoding → ByteOrder
  | .utf16 order | .utf32 order => order

/-- The number of bytes of a unit. -/
def width : UnitEncoding → Nat
  | .utf16 _ => 2
  | .utf32 _ => 4

theorem width_pos (e : UnitEncoding) : 0 < e.width := by
  cases e <;> simp [width]

def name (e : UnitEncoding) : String :=
  (match e with
    | .utf16 _ => "utf-16-"
    | .utf32 _ => "utf-32-") ++
  match e.order with
    | .highFirst => "be"
    | .lowFirst => "le"

end UnitEncoding

/-- Why bytes are no text in an encoding. -/
inductive UnitFault
  /-- The last unit lacks bytes. -/
  | cutOff
  /-- A unit is beyond the last code point. -/
  | beyondRange
  deriving DecidableEq, Repr

def UnitFault.reason : UnitFault → String
  | .cutOff => "truncated data"
  | .beyondRange => "code point not in range(0x110000)"

/-- Bytes that are no text, and where they stand. -/
structure Undecodable where
  encoding : UnitEncoding
  position : Nat
  bytes : List UInt8
  fault : UnitFault
  deriving DecidableEq, Repr

def Undecodable.message (u : Undecodable) : String :=
  let place := match u.bytes with
    | [b] => "byte 0x" ++ String.ofList (hexDigits 2 b.toNat) ++ s!" in position {u.position}"
    | _ => s!"bytes in position {u.position}-{u.position + u.bytes.length - 1}"
  "'" ++ u.encoding.name ++ "' codec can't decode " ++ place ++ ": " ++ u.fault.reason

/-- The value of the bytes of a unit. -/
def unitValue (order : ByteOrder) (bytes : List UInt8) : Nat :=
  let highFirst := match order with
    | .highFirst => bytes
    | .lowFirst => bytes.reverse
  highFirst.foldl (fun n (b : UInt8) => 256 * n + b.toNat) 0

/-- Cuts bytes into units, from a position on. -/
def readUnits (e : UnitEncoding) (position : Nat) (bytes : List UInt8) :
    Except Undecodable (List Nat) :=
  if bytes = [] then .ok []
  else
    let unit := bytes.take e.width
    let value := unitValue e.order unit
    if unit.length < e.width then
      .error { encoding := e, position, bytes := unit, fault := .cutOff }
    else if 0x110000 ≤ value then
      .error { encoding := e, position, bytes := unit, fault := .beyondRange }
    else (readUnits e (position + e.width) (bytes.drop e.width)).map (value :: ·)
  termination_by bytes.length
  decreasing_by
    have step := e.width_pos
    have left := List.length_pos_iff.2 ‹¬bytes = []›
    rw [List.length_drop]
    omega

/-- The code point of the two halves of a pair. -/
def joinPair? (high low : Nat) : Option Nat :=
  if 0xd800 ≤ high ∧ high < 0xdc00 ∧ 0xdc00 ≤ low ∧ low < 0xe000 then
    some (0x10000 + (high - 0xd800) * 0x400 + (low - 0xdc00))
  else none

/-- The units of two bytes that a code point takes. -/
def splitPair (point : Nat) : List Nat :=
  if point < 0x10000 then [point]
  else [0xd800 + (point - 0x10000) / 0x400, 0xdc00 + (point - 0x10000) % 0x400]

/-- The code points of units of two bytes. -/
def joinPairs : List Nat → List Nat
  | [] => []
  | [unit] => [unit]
  | high :: low :: rest =>
    match joinPair? high low with
    | some point => point :: joinPairs rest
    | none => high :: joinPairs (low :: rest)

/-- The text of bytes in an encoding; half of a pair by itself is replaced. -/
def readEncoded (e : UnitEncoding) (bytes : List UInt8) : Except Undecodable String :=
  (readUnits e 0 bytes).map fun units =>
    match e with
    | .utf16 _ => ofPoints (joinPairs units)
    | .utf32 _ => ofPoints units

end Earmark.Text
