import Menagerie.Text.Blank

/-! Packed messages. A caller says in its headers how its messages are packed and how it accepts the
answers; a service says which codings it knows. -/

namespace Menagerie.Rpc

abbrev Headers := List (String × String)

/-- The first header of a name. -/
def Headers.find? (hs : Headers) (name : String) : Option String := hs.lookup name

inductive Coding where
  | gzip | zstd
  deriving DecidableEq, Repr

/-- A way to pack octets; what it packs it unpacks again. -/
structure Codec where
  pack : List UInt8 → List UInt8
  unpack : List UInt8 → Except String (List UInt8)
  unpack_pack : ∀ bs, unpack (pack bs) = .ok bs

namespace Coding

def name : Coding → String
  | gzip => "gzip"
  | zstd => "zstd"

def all : List Coding := [gzip, zstd]

def ofName? (s : String) : Option Coding := all.find? (·.name = s)

/-- The header that names the coding of the messages. -/
def header : String := "grpc-encoding"

/-- The header that names the codings accepted in an answer. -/
def acceptHeader : String := "grpc-accept-encoding"

/-- The coding that stands for messages as they are. -/
def identityName : String := "identity"

/-- The codings of a service, as it offers them to a caller. -/
def offer (known : List Coding) : String :=
  ",".intercalate (known.map name ++ [identityName])

/-- The coding of a request, none for messages as they are; the name of one that the service does not
know. -/
def announced (known : List Coding) (hs : Headers) : Except String (Option Coding) :=
  match hs.find? header with
  | none => .ok none
  | some s =>
    match known.find? (·.name = s) with
    | some c => .ok (some c)
    | none => if s = identityName then .ok none else .error s

/-- The first coding in a list of accepted ones that the service knows. -/
def accepted (known : List Coding) (hs : Headers) : Option Coding :=
  (hs.find? acceptHeader).bind fun s =>
    (s.splitOn ",").findSome? fun part =>
      known.find? fun c => c.name.toList = Text.trim part.toList

end Coding

end Menagerie.Rpc
