/-! Why octets fail to be a message. A fault has a reason and the fields around the place where it
arose, the innermost first. -/

namespace Menagerie.Wire

/-- How the value after a field's key is laid out. -/
inductive WireType where
  | varint | fixed64 | delimited | groupStart | groupEnd | fixed32
  deriving DecidableEq, Repr

namespace WireType

def number : WireType → Nat
  | varint => 0
  | fixed64 => 1
  | delimited => 2
  | groupStart => 3
  | groupEnd => 4
  | fixed32 => 5

def ofNumber? : Nat → Option WireType
  | 0 => some varint
  | 1 => some fixed64
  | 2 => some delimited
  | 3 => some groupStart
  | 4 => some groupEnd
  | 5 => some fixed32
  | _ => none

def name : WireType → String
  | varint => "Varint"
  | fixed64 => "SixtyFourBit"
  | delimited => "LengthDelimited"
  | groupStart => "StartGroup"
  | groupEnd => "EndGroup"
  | fixed32 => "ThirtyTwoBit"

theorem ofNumber?_number (t : WireType) : ofNumber? t.number = some t := by
  cases t <;> rfl

end WireType

inductive Reason where
  | invalidVarint
  | invalidKey (key : Nat)
  | invalidWireType (number : Nat)
  | zeroTag
  | mismatch (actual expected : WireType)
  | underflow
  | notText
  | groupEnd
  | tooDeep
  | overrun
  deriving DecidableEq, Repr

def Reason.message : Reason → String
  | invalidVarint => "invalid varint"
  | invalidKey key => s!"invalid key value: {key}"
  | invalidWireType number => s!"invalid wire type value: {number}"
  | zeroTag => "invalid tag value: 0"
  | mismatch actual expected => s!"invalid wire type: {actual.name} (expected {expected.name})"
  | underflow => "buffer underflow"
  | notText => "invalid string value: data is not UTF-8 encoded"
  | groupEnd => "unexpected end group tag"
  | tooDeep => "recursion limit reached"
  | overrun => "delimited length exceeded"

structure Fault where
  reason : Reason
  /-- Message and field names, innermost first. -/
  path : List (String × String) := []
  deriving DecidableEq, Repr

namespace Fault

def message (f : Fault) : String :=
  "failed to decode Protobuf message: "
    ++ String.join (f.path.map fun p => p.1 ++ "." ++ p.2 ++ ": ") ++ f.reason.message

/-- The fault seen from the message around it. -/
def within (messageName fieldName : String) (f : Fault) : Fault :=
  { f with path := f.path ++ [(messageName, fieldName)] }

end Fault

/-- A reader takes octets from the front of a list. -/
abbrev Reader (α : Type) := List UInt8 → Except Reason (α × List UInt8)

end Menagerie.Wire
