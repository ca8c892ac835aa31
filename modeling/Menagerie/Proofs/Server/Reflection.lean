import Menagerie.Proofs.Server.Composition

/-! A reflection service over a set of files is registered exactly if every element of the files has a
name. Else the composition ends there, and the error tells the kind of the first element without one. -/

namespace Menagerie

open Descriptor

namespace Descriptor

theorem firstUnnamed?_of_eq {vs earlier later : List (Element × Option String)} {what : Element}
    (h : vs = earlier ++ (what, none) :: later) (hearlier : ∀ v ∈ earlier, v.2.isSome) :
    firstUnnamed? vs = some what := by
  rw [h, firstUnnamed?_append, firstUnnamed?_eq_none_iff.2 hearlier]
  rfl

end Descriptor

namespace Registration

section

variable {files : List File} (hfiles : ∀ f ∈ files, f.IsShallow)
  (hsize : (encodeSet files).length < UInt64.size) (name : String)
include hfiles hsize

theorem reports_ofSets_schema :
    Reports (Catalogue.ofSets [encodeSet files, encodeSet [Schema.reflection]]) (visits files) := by
  have hschema : ∀ f ∈ [Schema.reflection], f.IsFaultless := by
    intro f hf
    exact isFaultless_of_mem_schemas f (List.mem_cons_of_mem _ (List.mem_cons_of_mem _ hf))
  exact Catalogue.reports_ofSets hfiles hsize hschema

theorem reflectionOver_of_named (h : ∀ v ∈ visits files, v.2.isSome) :
    ∃ catalogue, reflectionOver name [encodeSet files] =
      .adds name [⟨"grpc.reflection.v1.ServerReflection", .reflection catalogue⟩] := by
  have hname : Schema.serviceName Schema.reflection = "grpc.reflection.v1.ServerReflection" := by
    decide +kernel
  obtain ⟨catalogue, hcatalogue⟩ := (reports_ofSets_schema hfiles hsize).exists_ok h
  refine ⟨catalogue, ?_⟩
  rw [reflectionOver, List.singleton_append, hcatalogue, hname]

theorem reflectionOver_of_unnamed {what : Element} (h : firstUnnamed? (visits files) = some what) :
    reflectionOver name [encodeSet files] = .fails (.reflection (.unnamed what)) := by
  rw [reflectionOver, List.singleton_append, (reports_ofSets_schema hfiles hsize).eq_error h]

end

end Registration

/-- A registration with one path of its own composes behind others. -/
theorem Clear.concat_adds {rs : List Registration} (h : Clear rs) (name : String) {s : Service}
    (hpath : s.path ∉ rs.flatMap Registration.paths) : Clear (rs ++ [.adds name [s]]) := by
  obtain ⟨hnames, hpaths⟩ := clear_iff.mp h
  rw [clear_iff, List.flatMap_append]
  constructor
  · intro r hr
    rcases List.mem_append.mp hr with hr | hr
    · exact hnames r hr
    · rw [List.mem_singleton.mp hr]
      rfl
  · refine List.nodup_append.mpr ⟨hpaths, List.nodup_singleton _, ?_⟩
    rintro path hmem _ hsame rfl
    rw [List.mem_singleton.mp hsame] at hmem
    exact hpath hmem

/-- A registration that fails behind others that compose ends the composition. -/
theorem Clear.compose_fails {rs : List Registration} (h : Clear rs) (e : StartupError)
    (after : List Registration) :
    (compose (rs ++ .fails e :: after)).tried = rs ++ [.fails e] ∧
      (compose (rs ++ .fails e :: after)).result = .error (.failed e) := by
  have hobstructed : Obstructed (rs ++ .fails e :: after) rs.length (.failed e) :=
    ⟨.fails e, by simp, .fails e⟩
  obtain ⟨names, -, hcompose⟩ := compose_of_obstructed hobstructed (by rwa [List.take_left])
  rw [List.take_length_add_append] at hcompose
  rw [hcompose]
  exact ⟨rfl, rfl⟩

/-- **Reflection reports the first element without a name.** A set of files is encoded, in less than 2 to the
64 octets, and reflection over it is registered behind others that compose. If every element that is visited
has a name, the service is built, and composes unless its path is taken. Else the composition ends there,
and the error tells the kind of the first element in the order of the visits that has no name, whatever
comes behind it. -/
theorem reflection_reports_first_unnamed (files : List File) (hfiles : ∀ f ∈ files, f.IsShallow)
    (hsize : (encodeSet files).length < UInt64.size) (name : String) (before after : List Registration)
    (hbefore : Clear before) :
    ((∀ v ∈ visits files, v.2.isSome) →
      (∃ catalogue, Registration.reflectionOver name [encodeSet files] =
        .adds name [⟨"grpc.reflection.v1.ServerReflection", .reflection catalogue⟩]) ∧
      ("grpc.reflection.v1.ServerReflection" ∉ before.flatMap Registration.paths → ∃ server,
        (compose (before ++ [.reflectionOver name [encodeSet files]])).result = .ok server)) ∧
    ∀ earlier what later, visits files = earlier ++ (what, none) :: later → (∀ v ∈ earlier, v.2.isSome) →
      (compose (before ++ .reflectionOver name [encodeSet files] :: after)).tried =
        before ++ [.reflectionOver name [encodeSet files]] ∧
      (compose (before ++ .reflectionOver name [encodeSet files] :: after)).result =
        .error (.failed (.reflection (.unnamed what))) ∧
      (StartupError.reflection (.unnamed what)).message =
        "failed to build reflection service: invalid FileDescriptorSet - " ++ what.missing := by
  refine ⟨fun hnamed => ?_, fun earlier what later hvisits hearlier => ?_⟩
  · obtain ⟨catalogue, hover⟩ := Registration.reflectionOver_of_named hfiles hsize name hnamed
    refine ⟨⟨catalogue, hover⟩, fun hpath => ?_⟩
    rw [composes_iff_clear, hover]
    exact hbefore.concat_adds name hpath
  · have hfirst := firstUnnamed?_of_eq hvisits hearlier
    rw [Registration.reflectionOver_of_unnamed hfiles hsize name hfirst]
    obtain ⟨htried, hresult⟩ := hbefore.compose_fails (.reflection (.unnamed what)) after
    exact ⟨htried, hresult, rfl⟩

/-- A file without a fault, and one with its name in which a message has none. -/
def repeatedFiles : List File :=
  [{ name := some "a.proto", messages := [{ name := some "A" }] },
    { name := some "a.proto", messages := [{ name := none }] }]

/-- An enumeration has a value without a name. -/
def unnamedValue : Message :=
  { name := some "C", enums := [{ name := some "E", values := [{ name := none }] }] }

/-- The message with the value is inside one that has a field without a name, in a file that has an
enumeration without a name, in front of a file that has none itself. -/
def unnamedFiles : List File :=
  repeatedFiles ++ [{ name := some "b.proto", enums := [{ name := none }], messages :=
    [{ name := some "B", fields := [{ name := none }], nested := [unnamedValue] }] }, { name := none }]

theorem reflection_reports_first_unnamed_nested :
    (∀ f ∈ unnamedFiles, f.IsShallow) ∧ (encodeSet unnamedFiles).length < UInt64.size ∧
      Clear [.named "first"] ∧
      (∃ server, (compose [.named "first", .reflectionOver "second" [encodeSet repeatedFiles]]).result =
        .ok server) ∧
      (compose [.named "first", .reflectionOver "second" [encodeSet unnamedFiles], .health]).result =
        .error (.failed (.reflection (.unnamed .enumerationValue))) ∧
      (StartupError.reflection (.unnamed .enumerationValue)).message =
        "failed to build reflection service: invalid FileDescriptorSet - missing enum value name" := by
  have hfiles : ∀ f ∈ unnamedFiles, f.IsShallow := by
    decide +kernel
  have hsize : (encodeSet unnamedFiles).length < UInt64.size := by
    decide +kernel
  have hbefore : Clear [.named "first"] :=
    clear_iff.mpr ⟨List.forall_mem_singleton.mpr rfl, List.nodup_nil⟩
  -- What the repeated file lacks does not count.
  have hrepeated := (reflection_reports_first_unnamed repeatedFiles (by decide +kernel) (by decide +kernel) "second"
    [.named "first"] [] hbefore).1 (by decide +kernel)
  obtain ⟨-, hresult, hmessage⟩ :=
    (reflection_reports_first_unnamed unnamedFiles hfiles hsize "second" [.named "first"] [.health] hbefore).2
      [(.file, some "a.proto"), (.message, some "A"), (.file, some "b.proto"), (.message, some "B"),
        (.message, some "C"), (.enumeration, some "E")] .enumerationValue
      [(.field, none), (.enumeration, none), (.file, none)] (by decide +kernel) (by decide)
  exact ⟨hfiles, hsize, hbefore, hrepeated.2 List.not_mem_nil, hresult, hmessage⟩

end Menagerie
