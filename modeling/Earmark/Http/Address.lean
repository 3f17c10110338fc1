import Earmark.Failure
import Earmark.Http.Host

/-!
Addresses: `[scheme:][//authority][path][?query][#fragment]`. Whoever makes a request may name all
of it, or leave out the scheme or the host: then only the path and the query count, below the root
of the server that the maker has in mind.
-/

namespace Earmark.Http

open scoped Earmark.Whole

/-- The parts of an address as they are written; the fragment is none of them. -/
structure Address where
  scheme : List Char
  authority : List Char
  path : List Char
  query : Option (List Char)
  deriving DecidableEq, Repr

namespace Address

def isSchemeChar (c : Char) : Bool := c.isAlphanum || c == '+' || c == '.' || c == '-'

/-- The scheme and what follows its colon; the scheme may be empty. -/
def takeScheme (cs : List Char) : List Char × List Char :=
  let word := cs.takeWhile isSchemeChar
  match cs.dropWhile isSchemeChar with
  | ':' :: rest => if word.head?.all Char.isAlpha then (word.map Char.toLower, rest) else ([], cs)
  | _ => ([], cs)

/-- The authority between two slashes and what ends it. -/
def takeAuthority : List Char → List Char × List Char
  | '/' :: '/' :: rest =>
    let inside (c : Char) : Bool := c != '/' && c != '?' && c != '#'
    (rest.takeWhile inside, rest.dropWhile inside)
  | cs => ([], cs)

def ofChars (cs : List Char) : Address :=
  let (scheme, rest) := takeScheme cs
  let (authority, rest) := takeAuthority rest
  let inPath (c : Char) : Bool := c != '?' && c != '#'
  let query := match rest.dropWhile inPath with
    | '?' :: rest => some (rest.takeWhile (· != '#'))
    | _ => none
  { scheme, authority, path := rest.takeWhile inPath, query }

/-- What of the authority stands behind the name of a user. -/
def server (a : Address) : List Char := (a.authority.reverse.takeWhile (· != '@')).reverse

/-- The host and what stands behind it. A host in brackets goes up to the last of them. -/
def hostAndPort (a : Address) : List Char × List Char :=
  let bracketed := (a.server.reverse.dropWhile (· != ']')).reverse
  if a.server.head? = some '[' ∧ bracketed ≠ [] then
    (bracketed, a.server.drop bracketed.length)
  else (a.server.takeWhile (· != ':'), a.server.dropWhile (· != ':'))

def host (a : Address) : List Char := a.hostAndPort.1

def port (a : Address) : List Char :=
  match a.hostAndPort.2 with
  | ':' :: port => port
  | port => port

/-- Whether a server or a user is named. -/
def hasAuthority (a : Address) : Bool := !(a.authority.all fun c => c == '@' || c == ':')

/-- The greatest number of characters of an address, and of each of its parts with all escapes. -/
def maxLength : Nat := 65536

/-- Whether a character may stand in an address at all. -/
def isAllowed (c : Char) : Bool := ' ' ≤ c && c != '\x7f'

/-- Whether a path or a query holds a character as it is, without an escape. -/
def isPlain (c : Char) : Bool := '!' ≤ c && c ≤ '~' && !"\"<>`\x7b\x7d".toList.contains c

/-- The length of a part with all escapes. -/
def lengthWithEscapes (part : List Char) : Nat :=
  (part.map fun c => if isPlain c then 1 else 3 * c.utf8Size).sum

/-- Whether the parts fit together: the host is what it looks like, the port is a number, and a path
by itself cannot be taken for an authority or a scheme. -/
def isValid (a : Address) : Bool :=
  Host.isValid a.host &&
    (a.port.isEmpty || (Text.wholeDigits? (String.ofList a.port)).isSome) &&
    (!a.scheme.isEmpty || a.hasAuthority ||
      !("//".toList.isPrefixOf a.path || ":".toList.isPrefixOf a.path))

/-- The port that a scheme uses unless another one is named, for the schemes that are known. -/
def standardPort? (scheme : String) : Option Int :=
  if scheme = "http" ∨ scheme = "ws" then some 80
  else if scheme = "https" ∨ scheme = "wss" then some 443
  else none

/-- Whether a scheme asks for a conversation, not for one reply. -/
def isConversation (scheme : String) : Bool := scheme == "ws" || scheme == "wss"

/-- The port that is named, unless it is the one that is used anyway. -/
def ownPort? (a : Address) : Option Int := do
  let (neg, digits) ← Text.wholeDigits? (String.ofList a.port)
  let port := Decimal.signed neg (Text.ofDigits digits)
  if standardPort? (String.ofList a.scheme) = some port then none else some port

/-- What stands behind the first colon of host and port. It is taken for the port, also where that
colon belongs to a host in brackets. -/
def behindColon (a : Address) : String :=
  let port := (a.ownPort?.map fun port => s!":{port}").getD ""
  String.ofList ((a.host.dropWhile (· != ':')).drop 1) ++ port

/-- The path below the root of a server, without the segments `.` and `..`. -/
def rootPath (a : Address) : String :=
  let path := String.ofList a.path
  let path := if a.scheme.isEmpty && !a.hasAuthority then path else withoutDots path
  let path :=
    if a.scheme.isEmpty || a.host.isEmpty then
      withoutDots (String.ofList ('/' :: path.toList.dropWhile (· == '/')))
    else path
  if path.isEmpty then "/" else path

/-- Whether the parts with all escapes are short enough. -/
def isShort (a : Address) : Bool :=
  lengthWithEscapes a.rootPath.toList ≤ maxLength &&
    lengthWithEscapes (a.query.getD []) ≤ maxLength

/-- Reads an address that can be asked for. -/
def ofText (s : String) : Except Failure Address :=
  let a := ofChars s.toList
  if maxLength < s.length ∨ !s.toList.all isAllowed ∨ !a.isValid ∨ !a.isShort then
    .error .badAddress
  else
    let scheme := String.ofList a.scheme
    if scheme = "" ∨ a.host = [] then .ok a
    else if (standardPort? scheme).isNone then .error (.missingKey scheme)
    else if Host.isBracketed a.host then .error (.notAWhole (.text a.behindColon))
    else if isConversation scheme then .error .conversation
    else .ok a

/-- The path as it is asked for. -/
def plainPath (a : Address) : String := decodeEscapes a.rootPath

/-- The path as it is served: escapes that come of decoding are decoded as well. -/
def servedPath (a : Address) : String := decodeEscapes a.plainPath

end Address

/-- Parameters as they are written behind a question mark. -/
abbrev Parameters := List (String × String)

namespace Parameters

/-- The text behind plus signs, which stand for spaces, and escapes. -/
def decode (cs : List Char) : String :=
  decodeEscapes (String.ofList (cs.map fun c => if c = '+' then ' ' else c))

/-- The parameters of a query: pairs with `&` between them; a value may be left out. -/
def ofQuery (query : List Char) : Parameters :=
  (splitAt '&' query).filterMap fun pair =>
    if pair = [] then none
    else
      let key := pair.takeWhile (· != '=')
      some (decode key, decode (pair.drop (key.length + 1)))

/-- The length of parameters as they are written, with all escapes. -/
def writtenLength (ps : Parameters) : Nat :=
  let size (s : String) : Nat :=
    (s.toList.map fun c =>
      if c.isAlphanum || "_.-~ ".toList.contains c then 1 else 3 * c.utf8Size).sum
  (ps.map fun (key, value) => size key + size value + 2).sum - 1

end Parameters

end Earmark.Http
