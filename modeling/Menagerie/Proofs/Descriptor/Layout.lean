import Menagerie.Descriptor.Layout
import Menagerie.Proofs.Wire.Message

/-! Descriptors are read as they were written, if their lengths fit in 64 bits and their messages do not
nest too deep: a message takes one level for itself, one for each message around it, and two more for the
enumerations inside. -/

namespace Menagerie

namespace Wire

variable {M : Type} {step : M → Nat → WireType → List UInt8 → Except Fault (M × List UInt8)}

/-- Octets that lead from one message to another one when they are merged, whatever follows them. -/
def Leads (step : M → Nat → WireType → List UInt8 → Except Fault (M × List UInt8)) (m : M)
    (bs : List UInt8) (m' : M) : Prop :=
  ∀ ⦃stop : Nat⦄ ⦃rest : List UInt8⦄, stop ≤ rest.length → Merges step stop m (bs ++ rest) m' rest

namespace Leads

theorem refl (m : M) : Leads step m [] m := fun _ rest _ => .done m rest

theorem trans {m₁ m₂ m₃ : M} {bs bs' : List UInt8} (h : Leads step m₁ bs m₂) (h' : Leads step m₂ bs' m₃) :
    Leads step m₁ (bs ++ bs') m₃ := by
  intro stop rest hstop
  rw [List.append_assoc]
  refine (h ?_).trans (h' hstop)
  rw [List.length_append]
  omega

variable {m m' : M} {tag : Nat}

theorem writeKey {t : WireType} {value : List UInt8} (hpos : 0 < tag) (htag : tag < 536870912)
    (hstep : ∀ rest, step m tag t (value ++ rest) = .ok (m', rest)) :
    Leads step m (Wire.writeKey tag t ++ value) m' :=
  fun _ rest hstop => Merges.writeKey hpos htag hstop (hstep rest)

end Leads

/-- A message is read back from its octets where embedded messages may nest `depth` levels more. -/
def ReadsBack [Message M] (depth : Nat) (m : M) : Prop :=
  Leads (Message.mergeField depth) Message.blank (Message.encode m) m

theorem ReadsBack.decode_eq [Message M] {m : M} (h : ReadsBack depthLimit m) :
    decode M (Message.encode m) = .ok m := by
  have hmerges := h (Nat.le_refl ([] : List UInt8).length)
  rw [List.append_nil] at hmerges
  exact hmerges.merge_eq

end Wire

namespace Descriptor

open Wire

variable {M α : Type}

theorem setting_of_ok {set : α → M} {read : Except Wire.Reason (α × List UInt8)} {a : α}
    {rest : List UInt8} (h : read = .ok (a, rest)) : setting set read = .ok (set a, rest) := by
  rw [h, setting]

theorem embedding_of_ok {set : α → M} {read : Step α} {a : α} {rest : List UInt8}
    (h : read = .ok (a, rest)) : embedding set read = .ok (set a, rest) := by
  rw [h, embedding]
  rfl

end Descriptor

/-! ### The fields of a descriptor -/

namespace Wire.Leads

open Descriptor

variable {M : Type} {step : M → Nat → WireType → List UInt8 → Except Fault (M × List UInt8)} {m : M} {tag : Nat}
  (hpos : 0 < tag) (htag : tag < 536870912)
include hpos htag

theorem writeName (set : Option String → M)
    (hstep : ∀ bs, step (set none) tag .delimited bs = setting (fun s => set (some s)) (readText .delimited bs))
    {name : Option String} (hname : (Descriptor.writeName tag name).length < UInt64.size) :
    Leads step (set none) (Descriptor.writeName tag name) (set name) := by
  cases name with
  | none => exact .refl _
  | some s =>
      refine .writeKey hpos htag fun rest => ?_
      have hs : (Text.octets s).length < UInt64.size := by
        simp only [Descriptor.writeName, writeDelimited, List.length_append] at hname
        omega
      rw [hstep, setting_of_ok (readText_writeDelimited hs rest)]

theorem writeInt32 (set : Int32 → M) (hblank : set 0 = m)
    (hstep : ∀ bs, step m tag .varint bs = setting set (readInt32 .varint bs)) (n : Int32) :
    Leads step m (Wire.writeInt32 tag n) (set n) := by
  intro stop rest hstop
  refine .writeInt32_of_read hpos htag hstop set hblank (fun bs n after hread => ?_) n
  rw [hstep, setting_of_ok hread]

theorem writeText (set : String → M) (hblank : set "" = m)
    (hstep : ∀ bs, step m tag .delimited bs = setting set (readText .delimited bs)) {s : String}
    (hs : (Wire.writeText tag s).length < UInt64.size) : Leads step m (Wire.writeText tag s) (set s) := by
  intro stop rest hstop
  have hoctets := Nat.lt_of_le_of_lt (length_octets_le_writeText tag s) hs
  refine .writeText_of_read hpos htag hstop set hblank (fun bs s after hread => ?_) hoctets
  rw [hstep, setting_of_ok hread]

theorem writeFlag (set : Bool → M) (hblank : set false = m)
    (hstep : ∀ bs, step m tag .varint bs = setting (fun n => set (n != 0)) (readNumber .varint bs)) (b : Bool) :
    Leads step m (Descriptor.writeFlag tag b) (set b) := by
  cases b with
  | false =>
      rw [hblank]
      exact .refl m
  | true =>
      refine .writeKey hpos htag fun rest => ?_
      have hone : readNumber .varint ([1] ++ rest) = .ok (1, rest) := rfl
      rw [hstep, setting_of_ok hone]
      rfl

/-- Repeated embedded messages come behind those that are there. -/
theorem writeAll {N : Type} [Message N] {depth : Nat} (set : List N → M)
    (hstep : ∀ xs bs, step (set xs) tag .delimited bs =
      embedding (fun x => set (xs ++ [x])) (mergeEmbedded (depth + 1) Message.blank .delimited bs))
    {xs : List N} (hxs : (Descriptor.writeAll Message.encode tag xs).length < UInt64.size)
    (h : ∀ x ∈ xs, (Message.encode x).length < UInt64.size → ReadsBack depth x) (before : List N) :
    Leads step (set before) (Descriptor.writeAll Message.encode tag xs) (set (before ++ xs)) := by
  induction xs generalizing before with
  | nil =>
      rw [List.append_nil]
      exact .refl _
  | cons x xs ih =>
      have hwrite : Descriptor.writeAll Message.encode tag (x :: xs) =
          Wire.writeKey tag .delimited ++ writeDelimited (Message.encode x) ++
            Descriptor.writeAll Message.encode tag xs := List.flatMap_cons
      rw [hwrite] at hxs ⊢
      simp only [writeDelimited, List.length_append] at hxs
      obtain ⟨hx, hrest⟩ := List.forall_mem_cons.1 h
      have htail := ih (by omega) hrest (before ++ [x])
      rw [List.append_assoc, List.singleton_append] at htail
      refine .trans (.writeKey hpos htag fun rest => ?_) htail
      have hsize : (Message.encode x).length < UInt64.size := by omega
      rw [hstep, embedding_of_ok (mergeEmbedded_writeDelimited hsize (hx hsize (Nat.le_refl _)))]

end Wire.Leads

/-! ### The descriptors -/

namespace Descriptor

open Wire

variable {depth : Nat}

theorem Oneof.readsBack (o : Oneof) (h : (Wire.Message.encode o).length < UInt64.size) :
    ReadsBack depth o :=
  .writeName (by decide) (by decide) Oneof.mk (fun _ => rfl) h

theorem EnumValue.readsBack (v : EnumValue) (h : (Wire.Message.encode v).length < UInt64.size) :
    ReadsBack depth v := by
  have hencode : Wire.Message.encode v = writeName 1 v.name ++ writeInt32 2 v.number := rfl
  rw [hencode] at h
  simp only [List.length_append] at h
  rw [ReadsBack, hencode]
  refine .trans (.writeName (by decide) (by decide) (fun name => ({ name } : EnumValue)) (fun _ => rfl) (by omega)) ?_
  exact .writeInt32 (by decide) (by decide) (fun number => ({ v with number } : EnumValue)) rfl (fun _ => rfl) _

theorem Enumeration.readsBack (e : Enumeration) (h : (Wire.Message.encode e).length < UInt64.size) :
    ReadsBack (depth + 1) e := by
  have hencode : Wire.Message.encode e = writeName 1 e.name ++ writeAll Wire.Message.encode 2 e.values := rfl
  rw [hencode] at h
  simp only [List.length_append] at h
  rw [ReadsBack, hencode]
  refine .trans (.writeName (by decide) (by decide) (fun name => ({ name } : Enumeration)) (fun _ => rfl)
    (by omega)) ?_
  exact .writeAll (by decide) (by decide) (fun values => ({ e with values } : Enumeration)) (fun _ _ => rfl)
    (by omega) (fun v _ => v.readsBack) []

theorem Field.readsBack (f : Field) (h : (Wire.Message.encode f).length < UInt64.size) :
    ReadsBack depth f := by
  have hencode : Wire.Message.encode f = writeName 1 f.name ++ writeInt32 3 f.number ++ writeInt32 4 f.label
    ++ writeInt32 5 f.type ++ writeText 6 f.typeName
    ++ (f.oneof.elim [] fun n => writeKey 9 .varint ++ writeSigned n) ++ writeText 10 f.jsonName := rfl
  rw [ReadsBack, hencode]
  rw [hencode] at h
  simp only [List.length_append] at h
  simp only [List.append_assoc]
  refine .trans (.writeName (by decide) (by decide) (fun name => ({ name } : Field)) (fun _ => rfl)
    (by omega)) ?_
  refine .trans (.writeInt32 (by decide) (by decide) (fun number => ({ name := f.name, number } : Field)) rfl
    (fun _ => rfl) f.number) ?_
  refine .trans (.writeInt32 (by decide) (by decide)
    (fun label => ({ name := f.name, number := f.number, label } : Field)) rfl (fun _ => rfl) f.label) ?_
  refine .trans (.writeInt32 (by decide) (by decide)
    (fun type => ({ f with type, typeName := "", jsonName := "", oneof := none } : Field)) rfl (fun _ => rfl)
    f.type) ?_
  refine .trans (.writeText (by decide) (by decide)
    (fun typeName => ({ f with typeName, jsonName := "", oneof := none } : Field)) rfl (fun _ => rfl)
    (by omega)) ?_
  have honeof : Leads (Wire.Message.mergeField depth) ({ f with jsonName := "", oneof := none } : Field)
      (f.oneof.elim [] fun n => writeKey 9 .varint ++ writeSigned n) { f with jsonName := "" } := by
    obtain ⟨name, number, label, type, typeName, jsonName, _ | n⟩ := f
    · exact .refl _
    · exact .writeKey (by decide) (by decide) fun rest => setting_of_ok (readInt32_writeSigned n rest)
  exact honeof.trans (.writeText (by decide) (by decide) (fun jsonName => ({ f with jsonName } : Field)) rfl
    (fun _ => rfl) (by omega))

theorem Method.readsBack (m : Method) (h : (Wire.Message.encode m).length < UInt64.size) :
    ReadsBack depth m := by
  have hencode : Wire.Message.encode m = writeName 1 m.name ++ writeText 2 m.input ++ writeText 3 m.output
    ++ writeFlag 5 m.clientStreaming ++ writeFlag 6 m.serverStreaming := rfl
  rw [ReadsBack, hencode]
  rw [hencode] at h
  simp only [List.length_append] at h
  simp only [List.append_assoc]
  refine .trans (.writeName (by decide) (by decide) (fun name => ({ name } : Method)) (fun _ => rfl)
    (by omega)) ?_
  refine .trans (.writeText (by decide) (by decide) (fun input => ({ name := m.name, input } : Method)) rfl
    (fun _ => rfl) (by omega)) ?_
  refine .trans (.writeText (by decide) (by decide)
    (fun output => ({ name := m.name, input := m.input, output } : Method)) rfl (fun _ => rfl) (by omega)) ?_
  refine .trans (.writeFlag (by decide) (by decide)
    (fun clientStreaming => ({ m with clientStreaming, serverStreaming := false } : Method)) rfl
    (fun _ => rfl) m.clientStreaming) ?_
  exact .writeFlag (by decide) (by decide) (fun serverStreaming => ({ m with serverStreaming } : Method)) rfl
    (fun _ => rfl) m.serverStreaming

theorem Service.readsBack (s : Service) (h : (Wire.Message.encode s).length < UInt64.size) :
    ReadsBack (depth + 1) s := by
  have hencode : Wire.Message.encode s = writeName 1 s.name ++ writeAll Wire.Message.encode 2 s.methods := rfl
  rw [hencode] at h
  simp only [List.length_append] at h
  rw [ReadsBack, hencode]
  refine .trans (.writeName (by decide) (by decide) (fun name => ({ name } : Service)) (fun _ => rfl)
    (by omega)) ?_
  exact .writeAll (by decide) (by decide) (fun methods => ({ s with methods } : Service)) (fun _ _ => rfl)
    (by omega) (fun m _ => m.readsBack) []

/-! ### Messages and files -/

namespace Message

mutual

/-- How many messages are around the innermost one, this one counted. -/
def nesting (m : Message) : Nat :=
  match m with
  | ⟨_, nested, _, _, _⟩ => nestingAll nested

/-- The same for messages inside another one, that one counted. -/
def nestingAll (ms : List Message) : Nat :=
  match ms with
  | [] => 0
  | m :: rest => max (nesting m + 1) (nestingAll rest)

end

theorem encodeAll_eq (ms : List Message) : encodeAll ms = writeAll Wire.Message.encode 3 ms := by
  induction ms with
  | nil => rfl
  | cons m rest ih =>
      rw [encodeAll, ih]
      rfl

mutual

theorem readsBack (m : Message) {depth : Nat} (hdepth : m.nesting + 2 ≤ depth)
    (h : (Wire.Message.encode m).length < UInt64.size) : ReadsBack depth m := by
  match m, depth with
  | ⟨name, nested, enums, fields, oneofs⟩, depth + 2 =>
    have hencode : Wire.Message.encode (⟨name, nested, enums, fields, oneofs⟩ : Message) =
        writeName 1 name ++ writeAll Wire.Message.encode 2 fields ++ writeAll Wire.Message.encode 3 nested
          ++ writeAll Wire.Message.encode 4 enums ++ writeAll Wire.Message.encode 8 oneofs := by
      rw [← encodeAll_eq]
      rfl
    rw [ReadsBack, hencode]
    rw [hencode] at h
    simp only [List.length_append] at h
    simp only [List.append_assoc]
    refine .trans (.writeName (by decide) (by decide) (fun name => ({ name } : Message)) (fun _ => rfl)
      (by omega)) ?_
    refine .trans (.writeAll (by decide) (by decide) (fun fields => ({ name, fields } : Message))
      (fun _ _ => rfl) (by omega) (fun f _ => f.readsBack) []) ?_
    refine .trans (.writeAll (by decide) (by decide) (fun nested => ({ name, nested, fields } : Message))
      (fun _ _ => rfl) (by omega) (readsBackAll nested (by simpa [nesting] using hdepth)) []) ?_
    refine .trans (.writeAll (by decide) (by decide)
      (fun enums => ({ name, nested, enums, fields } : Message)) (fun _ _ => rfl) (by omega)
      (fun e _ => e.readsBack) []) ?_
    exact .writeAll (by decide) (by decide)
      (fun oneofs => ({ name, nested, enums, fields, oneofs } : Message)) (fun _ _ => rfl) (by omega)
      (fun o _ => o.readsBack) []

/-- Messages inside another one have one level less. -/
theorem readsBackAll (ms : List Message) {depth : Nat} (hdepth : nestingAll ms + 1 ≤ depth) :
    ∀ m ∈ ms, (Wire.Message.encode m).length < UInt64.size → ReadsBack depth m := by
  match ms with
  | [] => exact fun m hm => absurd hm List.not_mem_nil
  | m :: rest =>
    rw [nestingAll] at hdepth
    exact List.forall_mem_cons.2 ⟨readsBack m (by omega), readsBackAll rest (by omega)⟩

end

end Message

theorem leads_dependencies {depth : Nat} (set : List String → File)
    (hstep : ∀ names bs, File.mergeField depth (set names) 3 .delimited bs =
      setting (fun s => set (names ++ [s])) (readText .delimited bs))
    {names : List String} (hnames : (names.flatMap fun s => writeName 3 (some s)).length < UInt64.size)
    (before : List String) :
    Leads (File.mergeField depth) (set before) (names.flatMap fun s => writeName 3 (some s))
      (set (before ++ names)) := by
  induction names generalizing before with
  | nil =>
      rw [List.append_nil]
      exact .refl _
  | cons name names ih =>
      rw [List.flatMap_cons] at hnames ⊢
      simp only [writeName, writeDelimited, List.length_append] at hnames
      have htail := ih (by simp only [writeName, writeDelimited]; omega) (before ++ [name])
      rw [List.append_assoc, List.singleton_append] at htail
      refine .trans (.writeKey (by decide) (by decide) fun rest => ?_) htail
      rw [hstep, setting_of_ok (readText_writeDelimited (by omega) rest)]

theorem File.readsBack (f : File) {depth : Nat} (hdepth : Message.nestingAll f.messages + 2 ≤ depth)
    (h : (Wire.Message.encode f).length < UInt64.size) : ReadsBack (depth + 1) f := by
  have hencode : Wire.Message.encode f = writeName 1 f.name ++ writeText 2 f.package
    ++ (f.dependencies.flatMap fun s => writeName 3 (some s))
    ++ writeAll Wire.Message.encode 4 f.messages ++ writeAll Wire.Message.encode 5 f.enums
    ++ writeAll Wire.Message.encode 6 f.services ++ writeText 12 f.syntaxName := rfl
  rw [ReadsBack, hencode]
  rw [hencode] at h
  simp only [List.length_append] at h
  simp only [List.append_assoc]
  obtain ⟨depth, rfl⟩ := Nat.exists_eq_add_of_lt (show 0 < depth by omega)
  rw [Nat.zero_add] at hdepth ⊢
  refine .trans (.writeName (by decide) (by decide) (fun name => ({ name } : File)) (fun _ => rfl)
    (by omega)) ?_
  refine .trans (.writeText (by decide) (by decide) (fun package => ({ name := f.name, package } : File)) rfl
    (fun _ => rfl) (by omega)) ?_
  refine .trans (leads_dependencies
    (fun dependencies => ({ name := f.name, package := f.package, dependencies } : File)) (fun _ _ => rfl)
    (by omega) []) ?_
  refine .trans (.writeAll (by decide) (by decide)
    (fun messages => ({ f with messages, enums := [], services := [], syntaxName := "" } : File))
    (fun _ _ => rfl) (by omega) (Message.readsBackAll f.messages (by omega)) []) ?_
  refine .trans (.writeAll (by decide) (by decide)
    (fun enums => ({ f with enums, services := [], syntaxName := "" } : File)) (fun _ _ => rfl) (by omega)
    (fun e _ => e.readsBack) []) ?_
  refine .trans (.writeAll (by decide) (by decide)
    (fun services => ({ f with services, syntaxName := "" } : File)) (fun _ _ => rfl) (by omega)
    (fun s _ => s.readsBack) []) ?_
  exact .writeText (by decide) (by decide) (fun syntaxName => ({ f with syntaxName } : File)) rfl
    (fun _ => rfl) (by omega)

end Descriptor

end Menagerie
