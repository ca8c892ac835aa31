import Menagerie.Proofs.Descriptor.Visits
import Menagerie.Schema

/-! Descriptors take no more room than can be told from their texts and numbers, without writing them. The
files of pets, health and reflection are small enough to be read, and all that they hold has names. -/

namespace Menagerie

namespace Wire

theorem length_writeVarint_le (n : Nat) : (writeVarint n).length ≤ n + 1 := by
  induction n using Nat.strongRecOn with
  | ind n ih =>
      rw [writeVarint]
      split
      · simp
      · next hlarge =>
          have := ih (n / 128) (by omega)
          rw [List.length_cons]
          omega

theorem length_writeKey_le {tag : Nat} (htag : tag ≤ 15) (t : WireType) : (writeKey tag t).length ≤ 126 := by
  have hnumber : t.number ≤ 5 := by
    cases t <;> decide
  have := length_writeVarint_le (8 * tag + t.number)
  rw [writeKey]
  omega

theorem length_writeDelimited_le (bs : List UInt8) : (writeDelimited bs).length ≤ 2 * bs.length + 1 := by
  have := length_writeVarint_le bs.length
  rw [writeDelimited, List.length_append]
  omega

end Wire

namespace Descriptor

/-- Room for a text. -/
def textRoom (s : String) : Nat := 128 + 2 * (Text.octets s).length

/-- Room for a number. -/
def numberRoom (n : Int32) : Nat := 128 + n.toInt64.toUInt64.toNat

/-- Room for embedded messages, each of which takes as much as `room` says. -/
def allRoom {M : Type} (room : M → Nat) : List M → Nat
  | [] => 0
  | m :: ms => 128 + 2 * room m + allRoom room ms

/-! ### Fields -/

section

variable {tag : Nat} (htag : tag ≤ 15)
include htag

theorem length_writeDelimited_field_le (bs : List UInt8) :
    (Wire.writeKey tag .delimited ++ Wire.writeDelimited bs).length ≤ 128 + 2 * bs.length := by
  have := Wire.length_writeKey_le htag .delimited
  have := Wire.length_writeDelimited_le bs
  rw [List.length_append]
  omega

theorem length_writeName_le (name : Option String) : (writeName tag name).length ≤ textRoom (name.getD "") := by
  cases name with
  | none => exact Nat.zero_le _
  | some s => exact length_writeDelimited_field_le htag (Text.octets s)

theorem length_writeText_le (s : String) : (Wire.writeText tag s).length ≤ textRoom s := by
  rw [Wire.writeText]
  split
  · exact Nat.zero_le _
  · exact length_writeDelimited_field_le htag (Text.octets s)

theorem length_writeSigned_field_le (n : Int32) :
    (Wire.writeKey tag .varint ++ Wire.writeSigned n).length ≤ numberRoom n := by
  have := Wire.length_writeKey_le htag .varint
  have := Wire.length_writeVarint_le n.toInt64.toUInt64.toNat
  rw [List.length_append, Wire.writeSigned, numberRoom]
  omega

theorem length_writeInt32_le (n : Int32) : (Wire.writeInt32 tag n).length ≤ numberRoom n := by
  rw [Wire.writeInt32]
  split
  · exact Nat.zero_le _
  · exact length_writeSigned_field_le htag n

theorem length_writeFlag_le (b : Bool) : (writeFlag tag b).length ≤ 128 := by
  have := Wire.length_writeKey_le htag .varint
  cases b with
  | false => exact Nat.zero_le _
  | true =>
      simp only [writeFlag, if_true, List.length_append, List.length_singleton]
      omega

theorem length_writeAll_le {M : Type} {encode : M → List UInt8} {room : M → Nat} {ms : List M}
    (h : ∀ m ∈ ms, (encode m).length ≤ room m) : (writeAll encode tag ms).length ≤ allRoom room ms := by
  induction ms with
  | nil => exact Nat.zero_le _
  | cons m ms ih =>
      obtain ⟨hm, hms⟩ := List.forall_mem_cons.1 h
      have := length_writeDelimited_field_le htag (encode m)
      have := ih hms
      rw [writeAll, List.flatMap_cons, List.length_append, allRoom]
      change _ + (writeAll encode tag ms).length ≤ _
      omega

end

/-! ### Descriptors -/

def Oneof.room (o : Oneof) : Nat := textRoom (o.name.getD "")

theorem Oneof.length_encode_le (o : Oneof) : (Wire.Message.encode o).length ≤ o.room :=
  length_writeName_le (by decide) o.name

def EnumValue.room (v : EnumValue) : Nat := textRoom (v.name.getD "") + numberRoom v.number

theorem EnumValue.length_encode_le (v : EnumValue) : (Wire.Message.encode v).length ≤ v.room := by
  change (writeName 1 v.name ++ Wire.writeInt32 2 v.number).length ≤ _
  rw [List.length_append]
  exact Nat.add_le_add (length_writeName_le (by decide) _) (length_writeInt32_le (by decide) _)

def Enumeration.room (e : Enumeration) : Nat := textRoom (e.name.getD "") + allRoom EnumValue.room e.values

theorem Enumeration.length_encode_le (e : Enumeration) : (Wire.Message.encode e).length ≤ e.room := by
  change (writeName 1 e.name ++ writeAll Wire.Message.encode 2 e.values).length ≤ _
  rw [List.length_append]
  exact Nat.add_le_add (length_writeName_le (by decide) _)
    (length_writeAll_le (by decide) fun v _ => v.length_encode_le)

def Field.room (f : Field) : Nat :=
  textRoom (f.name.getD "") + numberRoom f.number + numberRoom f.label + numberRoom f.type + textRoom f.typeName
    + f.oneof.elim 0 numberRoom + textRoom f.jsonName

theorem Field.length_encode_le (f : Field) : (Wire.Message.encode f).length ≤ f.room := by
  change (Field.encode f).length ≤ _
  have hname : (writeName 1 f.name).length ≤ _ := length_writeName_le (by decide) f.name
  have hnumber : (Wire.writeInt32 3 f.number).length ≤ _ := length_writeInt32_le (by decide) f.number
  have hlabel : (Wire.writeInt32 4 f.label).length ≤ _ := length_writeInt32_le (by decide) f.label
  have htype : (Wire.writeInt32 5 f.type).length ≤ _ := length_writeInt32_le (by decide) f.type
  have htypeName : (Wire.writeText 6 f.typeName).length ≤ _ := length_writeText_le (by decide) f.typeName
  have hjsonName : (Wire.writeText 10 f.jsonName).length ≤ _ := length_writeText_le (by decide) f.jsonName
  have honeof : (f.oneof.elim [] fun n => Wire.writeKey 9 .varint ++ Wire.writeSigned n).length ≤
      f.oneof.elim 0 numberRoom := by
    cases f.oneof with
    | none => exact Nat.le_refl 0
    | some n => exact length_writeSigned_field_le (by decide) n
  simp only [Field.encode, Field.room, List.length_append]
  omega

def Method.room (m : Method) : Nat :=
  textRoom (m.name.getD "") + textRoom m.input + textRoom m.output + 256

theorem Method.length_encode_le (m : Method) : (Wire.Message.encode m).length ≤ m.room := by
  change (writeName 1 m.name ++ Wire.writeText 2 m.input ++ Wire.writeText 3 m.output
    ++ writeFlag 5 m.clientStreaming ++ writeFlag 6 m.serverStreaming).length ≤ _
  have hname : (writeName 1 m.name).length ≤ _ := length_writeName_le (by decide) m.name
  have hinput : (Wire.writeText 2 m.input).length ≤ _ := length_writeText_le (by decide) m.input
  have houtput : (Wire.writeText 3 m.output).length ≤ _ := length_writeText_le (by decide) m.output
  have hclient : (writeFlag 5 m.clientStreaming).length ≤ _ := length_writeFlag_le (by decide) _
  have hserver : (writeFlag 6 m.serverStreaming).length ≤ _ := length_writeFlag_le (by decide) _
  simp only [Method.room, List.length_append]
  omega

def Service.room (s : Service) : Nat := textRoom (s.name.getD "") + allRoom Method.room s.methods

theorem Service.length_encode_le (s : Service) : (Wire.Message.encode s).length ≤ s.room := by
  change (writeName 1 s.name ++ writeAll Wire.Message.encode 2 s.methods).length ≤ _
  rw [List.length_append]
  exact Nat.add_le_add (length_writeName_le (by decide) _)
    (length_writeAll_le (by decide) fun m _ => m.length_encode_le)

namespace Message

mutual

def room (m : Message) : Nat :=
  match m with
  | ⟨name, nested, enums, fields, oneofs⟩ => textRoom (name.getD "") + allRoom Field.room fields + roomAll nested
    + allRoom Enumeration.room enums + allRoom Oneof.room oneofs

def roomAll (ms : List Message) : Nat :=
  match ms with
  | [] => 0
  | m :: rest => 128 + 2 * room m + roomAll rest

end

mutual

theorem length_encode_le (m : Message) : (encode m).length ≤ m.room := by
  match m with
  | ⟨name, nested, enums, fields, oneofs⟩ =>
    have hname : (writeName 1 name).length ≤ _ := length_writeName_le (by decide) name
    have hfields : (writeAll Wire.Message.encode 2 fields).length ≤ _ :=
      length_writeAll_le (by decide) fun f _ => f.length_encode_le
    have hnested := length_encodeAll_le nested
    have henums : (writeAll Wire.Message.encode 4 enums).length ≤ _ :=
      length_writeAll_le (by decide) fun e _ => e.length_encode_le
    have honeofs : (writeAll Wire.Message.encode 8 oneofs).length ≤ _ :=
      length_writeAll_le (by decide) fun o _ => o.length_encode_le
    simp only [encode, room, List.length_append]
    omega

theorem length_encodeAll_le (ms : List Message) : (encodeAll ms).length ≤ roomAll ms := by
  match ms with
  | [] => exact Nat.le_refl 0
  | m :: rest =>
    have hm := length_encode_le m
    have hrest := length_encodeAll_le rest
    have hfield : (Wire.writeKey 3 .delimited ++ Wire.writeDelimited (encode m)).length ≤ _ :=
      length_writeDelimited_field_le (by decide) (encode m)
    rw [encodeAll, List.length_append, roomAll]
    omega

end

end Message

/-- A file without dependencies. -/
def File.room (f : File) : Nat :=
  textRoom (f.name.getD "") + textRoom f.package + allRoom Message.room f.messages
    + allRoom Enumeration.room f.enums + allRoom Service.room f.services + textRoom f.syntaxName

theorem File.length_encode_le {f : File} (hf : f.dependencies = []) :
    (Wire.Message.encode f).length ≤ f.room := by
  change (File.encode f).length ≤ _
  have hname : (writeName 1 f.name).length ≤ _ := length_writeName_le (by decide) f.name
  have hpackage : (Wire.writeText 2 f.package).length ≤ _ := length_writeText_le (by decide) f.package
  have hmessages : (writeAll Wire.Message.encode 4 f.messages).length ≤ _ :=
    length_writeAll_le (by decide) fun m _ => m.length_encode_le
  have henums : (writeAll Wire.Message.encode 5 f.enums).length ≤ _ :=
    length_writeAll_le (by decide) fun e _ => e.length_encode_le
  have hservices : (writeAll Wire.Message.encode 6 f.services).length ≤ _ :=
    length_writeAll_le (by decide) fun s _ => s.length_encode_le
  have hsyntax : (Wire.writeText 12 f.syntaxName).length ≤ _ := length_writeText_le (by decide) f.syntaxName
  simp only [File.encode, File.room, hf, List.flatMap_nil, List.length_append, List.length_nil]
  omega

theorem length_encodeSet_le {f : File} (hf : f.dependencies = []) :
    (encodeSet [f]).length ≤ 128 + 2 * f.room := by
  have hlength := f.length_encode_le hf
  have hfield : (Wire.writeKey 1 .delimited ++ Wire.writeDelimited (Wire.Message.encode f)).length ≤ _ :=
    length_writeDelimited_field_le (by decide) (Wire.Message.encode f)
  rw [encodeSet, writeAll, List.flatMap_singleton]
  omega

/-! ### The files of pets, health and reflection -/

theorem isFaultless_of_mem_schemas : ∀ f ∈ [Schema.pets, Schema.health, Schema.reflection],
    f.IsFaultless := by
  have hroom : ∀ f ∈ [Schema.pets, Schema.health, Schema.reflection],
      f.dependencies = [] ∧ 128 + 2 * f.room < UInt64.size ∧ f.IsShallow ∧ ∀ v ∈ f.visits, v.2.isSome := by
    decide +kernel
  intro f hf
  obtain ⟨hdependencies, hroom, hshallow, hnamed⟩ := hroom f hf
  exact ⟨hshallow, Nat.lt_of_le_of_lt (length_encodeSet_le hdependencies) hroom, hnamed⟩

end Descriptor

end Menagerie
