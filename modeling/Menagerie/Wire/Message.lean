import Menagerie.Text.Octets
import Menagerie.Wire.Skip

/-! Messages as octets. A message is written as its fields in ascending order, those with default
values left out. Reading merges field after field into a message: the last occurrence of a scalar or
a text wins, and the occurrences of an embedded message merge. -/

namespace Menagerie.Wire

/-- Embedded messages and groups may nest this deep. -/
def depthLimit : Nat := 100

class Message (M : Type) where
  blank : M
  encode : M → List UInt8
  /-- Merges the field with this number and layout, whose key has been read, into the message. -/
  mergeField : Nat → M → Nat → WireType → List UInt8 → Except Fault (M × List UInt8)

/-- Merges fields with `step` while more than `stop` octets are left. Every field takes octets, so
`bound` is the length of the input. -/
def mergeFields {M : Type} (step : M → Nat → WireType → List UInt8 → Except Fault (M × List UInt8))
    (stop : Nat) : Nat → M → List UInt8 → Except Fault (M × List UInt8)
  | 0, m, bs => .ok (m, bs)
  | bound + 1, m, bs =>
    if bs.length ≤ stop then .ok (m, bs)
    else
      match readKey bs with
      | .error e => .error ⟨e, []⟩
      | .ok ((tag, t), rest) =>
        match step m tag t rest with
        | .error f => .error f
        | .ok (m, rest) => mergeFields step stop bound m rest

/-- Merges a whole input into a message. -/
def merge {M : Type} [Message M] (m : M) (bs : List UInt8) : Except Fault M :=
  (mergeFields (Message.mergeField depthLimit) 0 bs.length m bs).map (·.1)

def decode (M : Type) [Message M] (bs : List UInt8) : Except Fault M := merge Message.blank bs

/-- Merges the fields of an embedded message with `step`. They are read from the octets that follow its
length without regard for that length, which they must then meet exactly. -/
def mergeEnclosed {M : Type} (step : M → Nat → WireType → List UInt8 → Except Fault (M × List UInt8))
    (m : M) (bs : List UInt8) : Except Fault (M × List UInt8) :=
  match readVarint bs with
  | .error e => .error ⟨e, []⟩
  | .ok (n, rest) =>
    if rest.length < n then .error ⟨.underflow, []⟩
    else
      let stop := rest.length - n
      match mergeFields step stop rest.length m rest with
      | .error f => .error f
      | .ok (m, rest) => if rest.length = stop then .ok (m, rest) else .error ⟨.overrun, []⟩

/-- Merges an embedded message, one level deeper. -/
def mergeEmbedded {M : Type} [Message M] (depth : Nat) (m : M) (t : WireType) (bs : List UInt8) :
    Except Fault (M × List UInt8) :=
  if t ≠ .delimited then .error ⟨.mismatch t .delimited, []⟩
  else
    match depth with
    | 0 => .error ⟨.tooDeep, []⟩
    | depth + 1 => mergeEnclosed (Message.mergeField depth) m bs

/-- A message behind its length; what follows it is left alone. -/
def decodeDelimited (M : Type) [Message M] (bs : List UInt8) : Except Fault M :=
  (mergeEmbedded depthLimit Message.blank .delimited bs).map (·.1)

def encodeDelimited {M : Type} [Message M] (m : M) : List UInt8 :=
  writeDelimited (Message.encode m)

/-- Merges nothing: the field is unknown. -/
def ignoreField {M : Type} (depth : Nat) (m : M) (tag : Nat) (t : WireType) (bs : List UInt8) :
    Except Fault (M × List UInt8) :=
  match skipField depth t tag bs with
  | .ok rest => .ok (m, rest)
  | .error e => .error ⟨e, []⟩

/-- Reads the value of a known field with `read` if its layout is the expected one. -/
def expecting {α : Type} (expected : WireType) (read : Reader α) (t : WireType) : Reader α := fun bs =>
  if t = expected then read bs else .error (.mismatch t expected)

def readOctets : WireType → Reader (List UInt8) := expecting .delimited readDelimited

def readText (t : WireType) : Reader String := fun bs =>
  match readOctets t bs with
  | .error e => .error e
  | .ok (body, rest) =>
    match Text.text? body with
    | some s => .ok (s, rest)
    | none => .error .notText

/-- A 32-bit number, of which only the low bits are kept. -/
def readInt32 (t : WireType) : Reader Int32 := fun bs =>
  match expecting .varint readVarint t bs with
  | .error e => .error e
  | .ok (n, rest) => .ok (Int32.ofInt n, rest)

/-- Sets a field from a value read, naming the field in a fault. -/
def setField {M α : Type} (messageName fieldName : String) (set : α → M)
    (read : Except Reason (α × List UInt8)) : Except Fault (M × List UInt8) :=
  match read with
  | .ok (a, rest) => .ok (set a, rest)
  | .error e => .error (Fault.within messageName fieldName ⟨e, []⟩)

/-- Sets a field from an embedded message. -/
def setEmbedded {M α : Type} (messageName fieldName : String) (set : α → M)
    (read : Except Fault (α × List UInt8)) : Except Fault (M × List UInt8) :=
  match read with
  | .ok (a, rest) => .ok (set a, rest)
  | .error f => .error (f.within messageName fieldName)

/-- A text field; the empty text is left out. -/
def writeText (tag : Nat) (s : String) : List UInt8 :=
  if s = "" then [] else writeKey tag .delimited ++ writeDelimited (Text.octets s)

/-- A 32-bit number field, extended to 64 bits with its sign; zero is left out. -/
def writeInt32 (tag : Nat) (n : Int32) : List UInt8 :=
  if n = 0 then [] else writeKey tag .varint ++ writeSigned n

/-- An embedded message; an absent one is left out, a present one is written even if empty. -/
def writeEmbedded {M : Type} [Message M] (tag : Nat) : Option M → List UInt8
  | none => []
  | some m => writeKey tag .delimited ++ writeDelimited (Message.encode m)

end Menagerie.Wire
