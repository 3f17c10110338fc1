import Earmark.Digest.Sha1
import Earmark.Text.Quoted

/-!
Settlement references: the first sixteen digits of the name-based identifier of what is settled.
The same settlement always gets the same reference.
-/

namespace Earmark.Reference

open Earmark.Digest

/-- The space of the names of payments. -/
def settlements : List UInt8 :=
  [0x6f, 0x1c, 0x2a, 0x8e, 0x93, 0xd4, 0x4b, 0x7a, 0x9e, 0x0f, 0x2d, 0x5c, 0x8b, 0x1a, 0x7e, 0x34]

/-- The standard space of the names that are resource locators. -/
def locators : List UInt8 :=
  [0x6b, 0xa7, 0xb8, 0x11, 0x9d, 0xad, 0x11, 0xd1, 0x80, 0xb4, 0x00, 0xc0, 0x4f, 0xd4, 0x30, 0xc8]

/-- The first eight bytes of a version 5 identifier. -/
def identifierHead (space : List UInt8) (name : String) : List UInt8 :=
  ((sha1 (space ++ name.toUTF8.toList)).take 8).mapIdx fun i byte =>
    if i = 6 then (byte &&& 0x0f) ||| 0x50 else byte

def hexOfBytes (bytes : List UInt8) : String :=
  String.ofList ((bytes.flatMap fun byte => Text.hexDigits 2 byte.toNat).map Char.toUpper)

/-- The sixteen digits of a name in a space. -/
def digits (space : List UInt8) (name : String) : String := hexOfBytes (identifierHead space name)

/-- What the digits of a payment are taken of. -/
def paymentName (transaction merchant amount : String) : String :=
  transaction ++ ":" ++ merchant ++ ":" ++ amount

def payment (transaction merchant amount : String) : String :=
  "SETL-" ++ digits settlements (paymentName transaction merchant amount)

def emergency (transaction merchant amount : String) : String :=
  "SETL-EMER-" ++ digits settlements (paymentName transaction merchant amount)

/-- What the digits of a milestone's release are taken of. -/
def releaseName (escrow milestone : String) : String := "escrow:" ++ escrow ++ ":" ++ milestone

def release (escrow milestone : String) : String :=
  "SETL-ESC-" ++ digits locators (releaseName escrow milestone)

end Earmark.Reference
