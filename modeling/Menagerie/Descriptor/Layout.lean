import Menagerie.Descriptor
import Menagerie.Descriptor.Shape

/-! The layout of descriptors as messages. Names are written whenever they are present, also when they
are empty; what is repeated is written and read element by element. -/

namespace Menagerie.Descriptor

open Wire (WireType Fault)

/-- The result of reading one field into a descriptor. -/
abbrev Step (M : Type) := Except Fault (M × List UInt8)

/-- Uses a value read. -/
def setting {M α : Type} (set : α → M) (read : Except Wire.Reason (α × List UInt8)) : Step M :=
  match read with
  | .ok (a, rest) => .ok (set a, rest)
  | .error e => .error ⟨e, []⟩

/-- Uses an embedded message, or a part that was checked. -/
def embedding {M α : Type} (set : α → M) (read : Step α) : Step M := read.map fun r => (set r.1, r.2)

/-- Checks a part and leaves the descriptor as it is. -/
def checking {M : Type} (m : M) (shape : Shape) (depth : Nat) (t : WireType) (bs : List UInt8) :
    Step M := embedding (fun _ => m) (checkPart shape depth t bs)

def readNumber (t : WireType) : Wire.Reader Nat := Wire.expecting .varint Wire.readVarint t

/-- An optional text; one that is present is written even if it is empty. -/
def writeName (tag : Nat) : Option String → List UInt8
  | none => []
  | some s => Wire.writeKey tag .delimited ++ Wire.writeDelimited (Text.octets s)

def writeFlag (tag : Nat) (b : Bool) : List UInt8 := if b then Wire.writeKey tag .varint ++ [1] else []

/-- A repeated embedded message. -/
def writeAll {M : Type} (encode : M → List UInt8) (tag : Nat) (ms : List M) : List UInt8 :=
  ms.flatMap fun m => Wire.writeKey tag .delimited ++ Wire.writeDelimited (encode m)

namespace Field

def encode (m : Field) : List UInt8 :=
  writeName 1 m.name ++ Wire.writeInt32 3 m.number ++ Wire.writeInt32 4 m.label
    ++ Wire.writeInt32 5 m.type ++ Wire.writeText 6 m.typeName
    ++ (m.oneof.elim [] fun n => Wire.writeKey 9 .varint ++ Wire.writeSigned n)
    ++ Wire.writeText 10 m.jsonName

def mergeField (depth : Nat) (m : Field) (tag : Nat) (t : WireType) (bs : List UInt8) : Step Field :=
  match tag with
  | 1 => setting (fun s => { m with name := some s }) (Wire.readText t bs)
  | 2 | 7 => setting (fun _ => m) (Wire.readText t bs)
  | 3 => setting (fun n => { m with number := n }) (Wire.readInt32 t bs)
  | 4 => setting (fun n => { m with label := n }) (Wire.readInt32 t bs)
  | 5 => setting (fun n => { m with type := n }) (Wire.readInt32 t bs)
  | 6 => setting (fun s => { m with typeName := s }) (Wire.readText t bs)
  | 8 => checking m .fieldOptions depth t bs
  | 9 => setting (fun n => { m with oneof := some n }) (Wire.readInt32 t bs)
  | 10 => setting (fun s => { m with jsonName := s }) (Wire.readText t bs)
  | 17 => setting (fun _ => m) (readNumber t bs)
  | tag => Wire.ignoreField depth m tag t bs

instance : Wire.Message Field := ⟨{ name := none }, encode, mergeField⟩

end Field

instance : Wire.Message Oneof where
  blank := ⟨none⟩
  encode m := writeName 1 m.name
  mergeField depth m tag t bs :=
    match tag with
    | 1 => setting (fun s => { m with name := some s }) (Wire.readText t bs)
    | 2 => checking m .oneofOptions depth t bs
    | tag => Wire.ignoreField depth m tag t bs

instance : Wire.Message EnumValue where
  blank := { name := none }
  encode m := writeName 1 m.name ++ Wire.writeInt32 2 m.number
  mergeField depth m tag t bs :=
    match tag with
    | 1 => setting (fun s => { m with name := some s }) (Wire.readText t bs)
    | 2 => setting (fun n => { m with number := n }) (Wire.readInt32 t bs)
    | 3 => checking m .enumValueOptions depth t bs
    | tag => Wire.ignoreField depth m tag t bs

instance : Wire.Message Enumeration where
  blank := { name := none }
  encode m := writeName 1 m.name ++ writeAll Wire.Message.encode 2 m.values
  mergeField depth m tag t bs :=
    match tag with
    | 1 => setting (fun s => { m with name := some s }) (Wire.readText t bs)
    | 2 => embedding (fun v => { m with values := m.values ++ [v] })
        (Wire.mergeEmbedded depth Wire.Message.blank t bs)
    | 3 => checking m .enumOptions depth t bs
    | 4 => checking m .range depth t bs
    | 5 => setting (fun _ => m) (Wire.readText t bs)
    | tag => Wire.ignoreField depth m tag t bs

namespace Message

mutual

def encode (m : Message) : List UInt8 :=
  match m with
  | ⟨name, nested, enums, fields, oneofs⟩ =>
    writeName 1 name ++ writeAll Wire.Message.encode 2 fields ++ encodeAll nested
      ++ writeAll Wire.Message.encode 4 enums ++ writeAll Wire.Message.encode 8 oneofs

/-- The messages declared inside a message. -/
def encodeAll (ms : List Message) : List UInt8 :=
  match ms with
  | [] => []
  | m :: rest => Wire.writeKey 3 .delimited ++ Wire.writeDelimited (encode m) ++ encodeAll rest

end

def mergeField : Nat → Message → Nat → WireType → List UInt8 → Step Message
  | depth, m, tag, t, bs =>
    match tag with
    | 1 => setting (fun s => { m with name := some s }) (Wire.readText t bs)
    | 2 => embedding (fun f => { m with fields := m.fields ++ [f] })
        (Wire.mergeEmbedded depth Wire.Message.blank t bs)
    | 3 =>
      if t ≠ .delimited then .error ⟨.mismatch t .delimited, []⟩
      else
        match depth with
        | 0 => .error ⟨.tooDeep, []⟩
        | depth + 1 => embedding (fun n => { m with nested := m.nested ++ [n] })
            (Wire.mergeEnclosed (mergeField depth) { name := none } bs)
    | 4 => embedding (fun e => { m with enums := m.enums ++ [e] })
        (Wire.mergeEmbedded depth Wire.Message.blank t bs)
    | 5 => checking m .extensionRange depth t bs
    | 6 => embedding (fun (_ : Field) => m) (Wire.mergeEmbedded depth Wire.Message.blank t bs)
    | 7 => checking m .messageOptions depth t bs
    | 8 => embedding (fun o => { m with oneofs := m.oneofs ++ [o] })
        (Wire.mergeEmbedded depth Wire.Message.blank t bs)
    | 9 => checking m .range depth t bs
    | 10 => setting (fun _ => m) (Wire.readText t bs)
    | tag => Wire.ignoreField depth m tag t bs

instance : Wire.Message Message := ⟨{ name := none }, encode, mergeField⟩

end Message

instance : Wire.Message Method where
  blank := { name := none }
  encode m := writeName 1 m.name ++ Wire.writeText 2 m.input ++ Wire.writeText 3 m.output
    ++ writeFlag 5 m.clientStreaming ++ writeFlag 6 m.serverStreaming
  mergeField depth m tag t bs :=
    match tag with
    | 1 => setting (fun s => { m with name := some s }) (Wire.readText t bs)
    | 2 => setting (fun s => { m with input := s }) (Wire.readText t bs)
    | 3 => setting (fun s => { m with output := s }) (Wire.readText t bs)
    | 4 => checking m .methodOptions depth t bs
    | 5 => setting (fun n => { m with clientStreaming := n != 0 }) (readNumber t bs)
    | 6 => setting (fun n => { m with serverStreaming := n != 0 }) (readNumber t bs)
    | tag => Wire.ignoreField depth m tag t bs

instance : Wire.Message Service where
  blank := { name := none }
  encode m := writeName 1 m.name ++ writeAll Wire.Message.encode 2 m.methods
  mergeField depth m tag t bs :=
    match tag with
    | 1 => setting (fun s => { m with name := some s }) (Wire.readText t bs)
    | 2 => embedding (fun r => { m with methods := m.methods ++ [r] })
        (Wire.mergeEmbedded depth Wire.Message.blank t bs)
    | 3 => checking m .serviceOptions depth t bs
    | tag => Wire.ignoreField depth m tag t bs

namespace File

def encode (m : File) : List UInt8 :=
  writeName 1 m.name ++ Wire.writeText 2 m.package
    ++ (m.dependencies.flatMap fun s => writeName 3 (some s))
    ++ writeAll Wire.Message.encode 4 m.messages ++ writeAll Wire.Message.encode 5 m.enums
    ++ writeAll Wire.Message.encode 6 m.services ++ Wire.writeText 12 m.syntaxName

def mergeField (depth : Nat) (m : File) (tag : Nat) (t : WireType) (bs : List UInt8) : Step File :=
  match tag with
  | 1 => setting (fun s => { m with name := some s }) (Wire.readText t bs)
  | 2 => setting (fun s => { m with package := s }) (Wire.readText t bs)
  | 3 => setting (fun s => { m with dependencies := m.dependencies ++ [s] }) (Wire.readText t bs)
  | 4 => embedding (fun n => { m with messages := m.messages ++ [n] })
      (Wire.mergeEmbedded depth Wire.Message.blank t bs)
  | 5 => embedding (fun e => { m with enums := m.enums ++ [e] })
      (Wire.mergeEmbedded depth Wire.Message.blank t bs)
  | 6 => embedding (fun s => { m with services := m.services ++ [s] })
      (Wire.mergeEmbedded depth Wire.Message.blank t bs)
  | 7 => embedding (fun (_ : Field) => m) (Wire.mergeEmbedded depth Wire.Message.blank t bs)
  | 8 => checking m .fileOptions depth t bs
  | 9 => checking m .sourceInfo depth t bs
  | 10 | 11 =>
    if t = .delimited then embedding (fun _ => m) (checkNumbers bs)
    else setting (fun _ => m) (readNumber t bs)
  | 12 => setting (fun s => { m with syntaxName := s }) (Wire.readText t bs)
  | tag => Wire.ignoreField depth m tag t bs

instance : Wire.Message File := ⟨{ name := none }, encode, mergeField⟩

end File

end Menagerie.Descriptor
