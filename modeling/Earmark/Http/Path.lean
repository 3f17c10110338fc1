import Earmark.Json.Reader

/-!
Paths of requests: their escapes, their segments and what they lead to.
-/

namespace Earmark.Http

/-- The bytes behind percent escapes; a percent sign that begins no escape stands for itself. -/
def unescape : List Char → List UInt8
  | '%' :: a :: b :: rest =>
    match Json.hexValue? a, Json.hexValue? b with
    | some high, some low => UInt8.ofNat (16 * high + low) :: unescape rest
    | _, _ => Text.utf8 "%" ++ unescape (a :: b :: rest)
  | c :: rest => Text.utf8 (String.singleton c) ++ unescape rest
  | [] => []

/-- The text behind percent escapes. -/
def decodeEscapes (s : String) : String := Text.ofUtf8 (unescape s.toList)

/-- The pieces of a text between the places of a character. -/
def splitAt (mark : Char) : List Char → List (List Char)
  | [] => [[]]
  | c :: rest =>
    if c = mark then [] :: splitAt mark rest
    else match splitAt mark rest with
      | piece :: more => (c :: piece) :: more
      | [] => [[c]]

/-- The pieces between the slashes of a path. -/
def pieces (path : String) : List String := (splitAt '/' path.toList).map String.ofList

/-- Takes the segments `.` and `..` out, given those in front in reverse: the latter takes the
segment before it with it. -/
def dropDots (before : List String) : List String → List String
  | [] => before.reverse
  | segment :: rest =>
    if segment = "." then dropDots before rest
    else if segment = ".." then
      dropDots (if before = [""] then before else before.drop 1) rest
    else dropDots (segment :: before) rest

/-- A path without the segments `.` and `..`. -/
def withoutDots (path : String) : String := "/".intercalate (dropDots [] (pieces path))

/-- The segments of a path that begins with a slash. -/
def segments (path : String) : List String :=
  match pieces path with
  | "" :: rest => rest
  | all => all

/-- Segments without a line end behind the last one. -/
def dropLineEnd (segments : List String) : List String :=
  match segments.reverse with
  | [] => []
  | last :: before =>
    match last.toList.reverse with
    | '\n' :: cs => (String.ofList cs.reverse :: before).reverse
    | _ => segments

/-- What segments lead to. No segment is empty, and a line end behind the last one is ignored
where it leads nowhere. -/
def lookUp {α : Type} (pages : List String → Option α) (segments : List String) : Option α :=
  let known (segments : List String) := if segments.contains "" then none else pages segments
  (known segments).or (known (dropLineEnd segments))

/-- A path without the slashes at its end. -/
def dropSlashes (path : String) : String :=
  String.ofList (path.toList.reverse.dropWhile (· == '/')).reverse

/-- What a path leads to. Where it leads nowhere but would without the slashes at its end, the
caller is sent on to it, at most `fuel` times. -/
def follow {α : Type} (pages : List String → Option α) (fuel : Nat) (path : String) : Option α :=
  match lookUp pages (segments path) with
  | some page => some page
  | none =>
    match fuel with
    | 0 => none
    | fuel + 1 =>
      let bare := dropSlashes path
      if bare = path ∨ (lookUp pages (segments bare)).isNone then none
      else follow pages fuel (decodeEscapes (withoutDots bare))

/-- How often a caller is sent on. -/
def maxRedirects : Nat := 20

/-- What a path leads to in the end. -/
def resolve {α : Type} (pages : List String → Option α) (path : String) : Option α :=
  follow pages maxRedirects path

end Earmark.Http
