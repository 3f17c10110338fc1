import Earmark.Http.Path

/-!
Hosts of addresses. A host is a name, four numbers with points between them, or groups with colons
between them in brackets. What looks like one of the latter two must be one.
-/

namespace Earmark.Http.Host

/-- A number below 256 without zeros in front. -/
def isByte (cs : List Char) : Bool :=
  cs.all Char.isDigit && (cs == ['0'] || cs.head?.any (· != '0')) && cs.length ≤ 3 &&
    Text.ofDigits (cs.filterMap Text.asciiDigit?) < 256

/-- Four numbers below 256 with points between them. -/
def isPointed (cs : List Char) : Bool :=
  let groups := splitAt '.' cs
  groups.length == 4 && groups.all isByte

/-- Whether characters are one run of digits and `more` others, each behind a character of any kind;
`inside` says that the first run has begun. -/
def areRuns (more : Nat) (inside : Bool) : List Char → Bool
  | [] => inside && more == 0
  | c :: rest =>
    (c.isDigit && areRuns more true rest) || (inside && more != 0 && areRuns (more - 1) false rest)

/-- Whether a host is taken for four numbers with points between them. -/
def looksPointed (cs : List Char) : Bool := areRuns 3 false cs

/-- Up to four hexadecimal digits. -/
def isGroup (cs : List Char) : Bool :=
  cs != [] && cs.length ≤ 4 && cs.all fun c => (Json.hexValue? c).isSome

/-- How many groups stand on one side of a gap; an empty piece alone is none. -/
def sideLength? (side : List (List Char)) : Option Nat :=
  if side = [[]] then some 0
  else if side.all isGroup then some side.length
  else none

/-- Whether pieces are eight groups, or fewer with a gap where an inner piece is empty. -/
def areGroups : List (List Char) → Bool
  | [] => false
  | first :: rest =>
    match rest.dropWhile (· != []) with
    | _ :: after@(_ :: _) =>
      match sideLength? (first :: rest.takeWhile (· != [])), sideLength? after with
      | some before, some behind => before + behind < 8
      | _, _ => false
    | _ => (first :: rest).all isGroup && (first :: rest).length == 8

/-- The pieces between colons; four numbers with points between them stand for the last two. -/
def groups? (cs : List Char) : Option (List (List Char)) :=
  let pieces := splitAt ':' cs
  match pieces.getLast? with
  | some last =>
    if !last.contains '.' then some pieces
    else if isPointed last then some (pieces.dropLast ++ [['0'], ['0']])
    else none
  | none => none

/-- Groups with colons between them; behind a percent sign the zone may be named in which they
hold. -/
def isColoned (cs : List Char) : Bool :=
  let zone := cs.dropWhile (· != '%')
  (zone.isEmpty || (zone.length != 1 && !(zone.drop 1).contains '%')) &&
    (groups? (cs.takeWhile (· != '%'))).any areGroups

/-- Whether a host is in brackets. -/
def isBracketed (cs : List Char) : Bool := cs.head? == some '[' && cs.getLast? == some ']'

/-- What stands in the brackets. -/
def unbracketed (cs : List Char) : List Char := (cs.drop 1).dropLast

/-- Whether a host is what it looks like. -/
def isValid (cs : List Char) : Bool :=
  if looksPointed cs then isPointed cs
  else if isBracketed cs then isColoned (unbracketed cs)
  else true

end Earmark.Http.Host
