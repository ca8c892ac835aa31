import Menagerie.Text.Octets

/-! Why octets fail to be the address of a service: a path, an authority, or a scheme with an authority
and maybe a path and a query. -/

namespace Menagerie

inductive UriFault where
  | empty
  | tooLong
  | schemeTooLong
  | character
  | authority
  | format
  deriving DecidableEq, Repr

def UriFault.message : UriFault → String
  | empty => "empty string"
  | tooLong => "uri too long"
  | schemeTooLong => "scheme too long"
  | character => "invalid uri character"
  | authority => "invalid authority"
  | format => "invalid format"

namespace Uri

/-- What a scheme consists of. -/
def isSchemeCharacter (c : Char) : Bool := c.isAlphanum || "+-.~".toList.contains c

/-- What may stand in an authority without being encoded. -/
def isUriCharacter (c : Char) : Bool := c.isAlphanum || "!#$&'()*+,-./:;=?@[]_~".toList.contains c

/-- What may stand in a path. -/
def isPathCharacter (c : Char) : Bool :=
  '!' ≤ c && c != '\x7f' && !"#<>?`".toList.contains c

/-- What may stand in a query. -/
def isQueryCharacter (c : Char) : Bool :=
  '!' ≤ c && c != '\x7f' && !"\"#<>".toList.contains c

/-- The scheme at the front and what follows the two slashes, where there is a scheme; a scheme has at
most 64 characters. -/
def splitScheme (cs : List Char) : Except UriFault (Option (List Char × List Char)) :=
  let scheme := cs.takeWhile isSchemeCharacter
  match cs.drop scheme.length with
  | ':' :: '/' :: '/' :: rest =>
    if cs.length ≤ 3 then .ok none
    else if 64 < scheme.length then .error .schemeTooLong
    else .ok (some (scheme, rest))
  | _ => .ok none

/-- What has been seen of an authority: the colons since the last user part or bracket, the brackets,
whether a percent sign is open, and whether the last character ended a user part. -/
structure Seen where
  colons : Nat := 0
  opened : Bool := false
  closed : Bool := false
  percent : Bool := false
  afterUser : Bool := false

/-- One character of an authority. -/
def Seen.step (s : Seen) (c : Char) : Except UriFault Seen :=
  let s := { s with afterUser := false }
  match c with
  | ':' => if 8 ≤ s.colons then .error .authority else .ok { s with colons := s.colons + 1 }
  | '[' => if s.percent || s.opened then .error .authority else .ok { s with opened := true }
  | ']' =>
    if !s.opened || s.closed then .error .authority
    else .ok { s with closed := true, colons := 0, percent := false }
  | '@' => .ok { s with colons := 0, percent := false, afterUser := true }
  | '%' => .ok { s with percent := true }
  | _ => if isUriCharacter c then .ok s else .error .character

def endsAuthority (c : Char) : Bool := c == '/' || c == '?' || c == '#'

/-- The authority at the front and the rest. -/
def splitAuthority (cs : List Char) : Except UriFault (List Char × List Char) :=
  let front := cs.takeWhile (!endsAuthority ·)
  match front.foldlM Seen.step {} with
  | .error e => .error e
  | .ok s =>
    if s.opened != s.closed || 1 < s.colons || s.afterUser || s.percent then .error .authority
    else .ok (front, cs.drop front.length)

/-- Checks a path, and the query after a question mark; after a hash anything goes. -/
def checkPath (cs : List Char) : Except UriFault Unit :=
  match cs.dropWhile isPathCharacter with
  | [] => .ok ()
  | '#' :: _ => .ok ()
  | '?' :: rest =>
    match rest.dropWhile isQueryCharacter with
    | [] => .ok ()
    | '#' :: _ => .ok ()
    | _ => .error .character
  | _ => .error .character

/-- Checks an address. -/
def check (s : String) : Except UriFault Unit :=
  if 65534 < s.utf8ByteSize then .error .tooLong
  else
    match s.toList with
    | [] => .error .empty
    | ['*'] => .ok ()
    | '/' :: rest => checkPath ('/' :: rest)
    | cs =>
      match splitScheme cs with
      | .error e => .error e
      | .ok none =>
        match splitAuthority cs with
        | .error e => .error e
        | .ok (_, rest) =>
          if rest.isEmpty then .ok ()
          else if cs.length = 1 then .error .character
          else .error .format
      | .ok (some (_, rest)) =>
        if rest.isEmpty then .error .empty
        else
          match splitAuthority rest with
          | .error e => .error e
          | .ok (front, path) => if front.isEmpty then .error .format else checkPath path

end Uri

end Menagerie
