import Menagerie.Descriptor.Set
import Menagerie.Proofs.Descriptor.Layout

/-! Elements of files in the order in which their names are looked for. A set of files is refused for
the first element without a name, in this order, and for nothing else; files that repeat the name of an
earlier one are not looked at. -/

namespace Menagerie.Descriptor

open Wire (ReadsBack)

/-! ### The order -/

def Enumeration.visits (e : Enumeration) : List (Element × Option String) :=
  (.enumeration, e.name) :: e.values.map fun v => (.enumerationValue, v.name)

namespace Message

mutual

/-- A message, the messages inside with all they hold, its enumerations, its fields, and its oneofs. -/
def visits (m : Message) : List (Element × Option String) :=
  match m with
  | ⟨name, nested, enums, fields, oneofs⟩ =>
    (.message, name) :: (visitsAll nested ++ enums.flatMap Enumeration.visits
      ++ (fields.map fun f => (.field, f.name)) ++ oneofs.map fun o => (.oneof, o.name))

def visitsAll (ms : List Message) : List (Element × Option String) :=
  match ms with
  | [] => []
  | m :: rest => visits m ++ visitsAll rest

end

end Message

def Service.visits (s : Service) : List (Element × Option String) :=
  (.service, s.name) :: s.methods.map fun m => (.method, m.name)

/-- A file, its messages, its enumerations, and its services. -/
def File.visits (f : File) : List (Element × Option String) :=
  (.file, f.name) :: (Message.visitsAll f.messages ++ f.enums.flatMap Enumeration.visits
    ++ f.services.flatMap Service.visits)

/-- The files that do not have the name of an earlier one. -/
def unrepeated (earlier : List File) : List File → List File
  | [] => []
  | f :: rest =>
    if f.name.isSome ∧ f.name ∈ earlier.map File.name then unrepeated (earlier ++ [f]) rest
    else f :: unrepeated (earlier ++ [f]) rest

/-- The elements of files that are visited, with their names. -/
def visits (files : List File) : List (Element × Option String) := (unrepeated [] files).flatMap File.visits

def firstUnnamed? (vs : List (Element × Option String)) : Option Element :=
  (vs.find? (·.2.isNone)).map Prod.fst

theorem firstUnnamed?_append (vs ws : List (Element × Option String)) :
    firstUnnamed? (vs ++ ws) = (firstUnnamed? vs).or (firstUnnamed? ws) := by
  rw [firstUnnamed?, List.find?_append, Option.map_or]
  rfl

theorem firstUnnamed?_eq_none_iff {vs : List (Element × Option String)} :
    firstUnnamed? vs = none ↔ ∀ v ∈ vs, v.2.isSome := by
  simp [firstUnnamed?, Option.isSome_iff_ne_none]

/-- This is refused for the first of the visited elements that has no name, and else succeeds. -/
def Reports {α : Type} (r : Except SetFault α) (vs : List (Element × Option String)) : Prop :=
  match firstUnnamed? vs with
  | none => ∃ a, r = .ok a
  | some what => r = .error (.unnamed what)

namespace Reports

variable {α β : Type} {vs ws : List (Element × Option String)}

theorem ok (a : α) : Reports (.ok a) [] := ⟨a, rfl⟩

theorem bind {x : Except SetFault α} {f : α → Except SetFault β} (hx : Reports x vs)
    (hf : ∀ a, x = .ok a → Reports (f a) ws) : Reports (x >>= f) (vs ++ ws) := by
  rw [Reports, firstUnnamed?_append]
  unfold Reports at hx
  cases hvs : firstUnnamed? vs with
  | none =>
      rw [hvs] at hx
      obtain ⟨a, rfl⟩ := hx
      exact hf a rfl
  | some what =>
      rw [hvs] at hx
      rw [hx]
      rfl

theorem exists_ok {r : Except SetFault α} (h : Reports r vs) (hvs : ∀ v ∈ vs, v.2.isSome) : ∃ a, r = .ok a := by
  rwa [Reports, firstUnnamed?_eq_none_iff.2 hvs] at h

theorem eq_error {r : Except SetFault α} {what : Element} (h : Reports r vs)
    (hvs : firstUnnamed? vs = some what) : r = .error (.unnamed what) := by
  rwa [Reports, hvs] at h

theorem map {x : Except SetFault α} (hx : Reports x vs) (f : α → β) :
    Reports (x >>= fun a => pure (f a)) vs := by
  have h := hx.bind fun a _ => ok (f a)
  rwa [List.append_nil] at h

theorem named {r : Except SetFault α} (h : Reports r vs) (what : Element) (name : String) :
    Reports r ((what, some name) :: vs) := h

theorem fullName (scope : String) (what : Element) (name : Option String) :
    Reports (Descriptor.fullName scope what name) [(what, name)] := by
  cases name with
  | none => exact rfl
  | some n => exact ⟨_, rfl⟩

theorem mapM {γ : Type} {f : γ → Except SetFault α} {visit : γ → Element × Option String} {xs : List γ}
    (h : ∀ x ∈ xs, Reports (f x) [visit x]) : Reports (xs.mapM f) (xs.map visit) := by
  induction xs with
  | nil => exact ok []
  | cons x xs ih =>
      obtain ⟨hx, hxs⟩ := List.forall_mem_cons.1 h
      rw [List.mapM_cons, List.map_cons, ← List.singleton_append]
      exact hx.bind fun a _ => (ih hxs).map _

theorem gather {γ : Type} {names : γ → Except SetFault (List String)}
    {visits : γ → List (Element × Option String)} {xs : List γ}
    (h : ∀ x ∈ xs, Reports (names x) (visits x)) :
    Reports (Descriptor.gather names xs) (xs.flatMap visits) := by
  induction xs with
  | nil => exact ok []
  | cons x xs ih =>
      obtain ⟨hx, hxs⟩ := List.forall_mem_cons.1 h
      rw [List.flatMap_cons]
      exact hx.bind fun a _ => (ih hxs).map _

end Reports

/-! ### The names in a file -/

theorem Enumeration.reports_symbols (scope : String) (e : Enumeration) : Reports (e.symbols scope) e.visits :=
  (Reports.fullName scope .enumeration e.name).bind fun name _ =>
    (Reports.mapM fun v _ => .fullName name .enumerationValue v.name).map _

theorem Service.reports_symbols (scope : String) (s : Service) : Reports (s.symbols scope) s.visits :=
  (Reports.fullName scope .service s.name).bind fun name _ =>
    (Reports.mapM fun m _ => .fullName name .method m.name).map _

namespace Message

mutual

theorem reports_symbols (scope : String) (m : Message) : Reports (symbols scope m) m.visits := by
  match m with
  | ⟨name, nested, enums, fields, oneofs⟩ =>
    rw [symbols, visits, ← List.singleton_append, List.append_assoc, List.append_assoc]
    refine (Reports.fullName scope .message name).bind fun name _ => ?_
    refine (reports_symbolsAll name nested).bind fun inner _ => ?_
    refine (Reports.gather fun e _ => e.reports_symbols name).bind fun enums _ => ?_
    refine (Reports.mapM fun f _ => .fullName name .field f.name).bind fun fields _ => ?_
    exact (Reports.mapM fun o _ => .fullName name .oneof o.name).map _

theorem reports_symbolsAll (scope : String) (ms : List Message) :
    Reports (symbolsAll scope ms) (visitsAll ms) := by
  match ms with
  | [] => exact .ok []
  | m :: rest =>
    rw [symbolsAll, visitsAll]
    exact (reports_symbols scope m).bind fun _ _ => (reports_symbolsAll scope rest).map _

end

end Message

theorem File.reports_symbols (f : File) :
    Reports f.symbols (Message.visitsAll f.messages ++ f.enums.flatMap Enumeration.visits
      ++ f.services.flatMap Service.visits) := by
  rw [symbols, List.append_assoc]
  refine (Message.reports_symbolsAll f.package f.messages).bind fun messages _ => ?_
  refine (Reports.gather fun e _ => e.reports_symbols f.package).bind fun enums _ => ?_
  exact (Reports.gather fun s _ => s.reports_symbols f.package).map _

/-! ### Sets of files -/

theorem encodeSet_cons (f : File) (files : List File) :
    encodeSet (f :: files) = Wire.writeKey 1 .delimited ++
      (Wire.writeVarint (Wire.Message.encode f).length ++ (Wire.Message.encode f ++ encodeSet files)) := by
  rw [encodeSet, writeAll, List.flatMap_cons, Wire.writeDelimited, List.append_assoc, List.append_assoc]
  rfl

theorem fileOctetsFrom_encodeSet {files : List File} (hsize : (encodeSet files).length < UInt64.size)
    {bound : Nat} (hbound : (encodeSet files).length ≤ bound) :
    fileOctetsFrom bound (encodeSet files) = .ok (files.map Wire.Message.encode) := by
  induction files generalizing bound with
  | nil => cases bound <;> rfl
  | cons f files ih =>
      have hkey : 0 < (Wire.writeKey 1 .delimited).length := Wire.length_writeVarint_pos _
      have hne : (encodeSet (f :: files)).isEmpty = false := by
        rw [List.isEmpty_eq_false_iff, ← List.length_pos_iff, encodeSet_cons, List.length_append]
        omega
      rw [encodeSet_cons] at hsize hbound hne ⊢
      simp only [List.length_append] at hsize hbound
      cases bound with
      | zero => omega
      | succ bound =>
          rw [fileOctetsFrom, hne, if_neg Bool.false_ne_true,
            Wire.readKey_writeKey .delimited (by decide) (by decide)]
          dsimp only
          rw [Wire.readVarint_writeVarint (by omega)]
          dsimp only
          rw [if_neg (by simp), List.drop_left, List.take_left, ih (by omega) (by omega)]
          rfl

/-- A set is told apart into the octets of its files. -/
theorem fileOctets_encodeSet {files : List File} (hsize : (encodeSet files).length < UInt64.size) :
    fileOctets (encodeSet files) = .ok (files.map Wire.Message.encode) :=
  fileOctetsFrom_encodeSet hsize (Nat.le_refl _)

theorem length_encode_le_encodeSet {f : File} {files : List File} (hf : f ∈ files) :
    (Wire.Message.encode f).length ≤ (encodeSet files).length := by
  induction files with
  | nil => cases hf
  | cons g files ih =>
      rw [encodeSet_cons]
      simp only [List.length_append]
      rcases List.mem_cons.1 hf with rfl | hf
      · omega
      · have := ih hf
        omega

/-- Messages of the file nest at most 90 deep, so that they can be read. -/
def File.IsShallow (f : File) : Prop := ∀ m ∈ f.messages, m.nesting ≤ 90

instance (f : File) : Decidable f.IsShallow :=
  inferInstanceAs (Decidable (∀ m ∈ f.messages, m.nesting ≤ 90))

theorem Message.nestingAll_le_iff {ms : List Message} {n : Nat} :
    nestingAll ms ≤ n + 1 ↔ ∀ m ∈ ms, m.nesting ≤ n := by
  induction ms with
  | nil => simp [nestingAll]
  | cons m ms ih =>
      rw [nestingAll, Nat.max_le, ih, List.forall_mem_cons, Nat.add_le_add_iff_right]

/-- A file that can be read, of which all elements have names. -/
structure File.IsFaultless (f : File) : Prop where
  shallow : f.IsShallow
  length_lt : (encodeSet [f]).length < UInt64.size
  named : ∀ v ∈ f.visits, v.2.isSome

theorem readFile_encode {f : File} (hf : f.IsShallow) (hsize : (Wire.Message.encode f).length < UInt64.size) :
    readFile (Wire.Message.encode f) = .ok ⟨f, Wire.Message.encode f⟩ := by
  have hnesting : Message.nestingAll f.messages ≤ 91 := Message.nestingAll_le_iff.2 hf
  have hread : ReadsBack Wire.depthLimit f := f.readsBack (by omega) hsize
  rw [readFile, hread.decode_eq]

namespace Catalogue

/-- The catalogue with a file that has a name and these symbols. -/
def withFile (c : Catalogue) (entry : FileEntry) (name : String) (symbols : List String) : Catalogue where
  files := c.files ++ [(name, entry)]
  symbols := (symbols.map fun s => (s, entry)).reverse ++ c.symbols
  services := c.services ++ entry.file.serviceNames

theorem add_of_mem {c : Catalogue} {entry : FileEntry} {name : String} (hname : entry.file.name = some name)
    (hmem : name ∈ c.files.map Prod.fst) : c.add entry = .ok c := by
  have hany : c.files.any (·.1 = name) = true := by
    simpa using hmem
  simp only [add, hname, hany, if_true]

theorem add_of_not_mem {c : Catalogue} {entry : FileEntry} {name : String}
    (hname : entry.file.name = some name) (hmem : name ∉ c.files.map Prod.fst) :
    c.add entry = entry.file.symbols >>= fun symbols => pure (c.withFile entry name symbols) := by
  have hany : c.files.any (·.1 = name) = false := by
    rw [List.any_eq_false]
    intro file hfile hsame
    obtain rfl := of_decide_eq_true hsame
    exact hmem (List.mem_map_of_mem hfile)
  simp only [add, hname, hany, Bool.false_eq_true, if_false]
  cases entry.file.symbols <;> rfl

/-- A file that is not there by its name is refused for its first element without a name. -/
theorem reports_add {c : Catalogue} {entry : FileEntry}
    (hnew : ∀ name, entry.file.name = some name → name ∉ c.files.map Prod.fst) :
    Reports (c.add entry) entry.file.visits := by
  rw [File.visits]
  cases hname : entry.file.name with
  | none =>
      rw [add, hname]
      exact rfl
  | some name =>
      rw [add_of_not_mem hname (hnew name hname)]
      exact (entry.file.reports_symbols.map _).named .file name

theorem map_fst_files_of_add {c c' : Catalogue} {entry : FileEntry} {name : String}
    (hname : entry.file.name = some name) (hmem : name ∉ c.files.map Prod.fst) (h : c.add entry = .ok c') :
    c'.files.map Prod.fst = c.files.map Prod.fst ++ [name] := by
  rw [add_of_not_mem hname hmem] at h
  cases hsymbols : entry.file.symbols with
  | error e =>
      rw [hsymbols] at h
      cases h
  | ok symbols =>
      rw [hsymbols] at h
      cases h
      exact List.map_append

/-- Reads a file and adds it. -/
def addOctets (c : Catalogue) (octets : List UInt8) : Except SetFault Catalogue := do
  c.add (← readFile octets)

/-- Files are added in order, and those that have the name of an earlier one are not looked at. -/
theorem reports_addOctets {files earlier : List File} {c : Catalogue}
    (hearlier : ∀ name, name ∈ c.files.map Prod.fst ↔ some name ∈ earlier.map File.name)
    (hread : ∀ f ∈ files, readFile (Wire.Message.encode f) = .ok ⟨f, Wire.Message.encode f⟩) :
    Reports ((files.map Wire.Message.encode).foldlM addOctets c)
      ((unrepeated earlier files).flatMap File.visits) := by
  induction files generalizing earlier c with
  | nil => exact .ok c
  | cons f files ih =>
      obtain ⟨hf, hfiles⟩ := List.forall_mem_cons.1 hread
      rw [List.map_cons, List.foldlM_cons, unrepeated]
      have hadd : addOctets c (Wire.Message.encode f) = c.add ⟨f, Wire.Message.encode f⟩ := by
        rw [addOctets, hf]
        rfl
      rw [hadd]
      split
      next hrepeated =>
          obtain ⟨name, hname⟩ := Option.isSome_iff_exists.1 hrepeated.1
          rw [hname] at hrepeated
          have hmem := (hearlier name).2 hrepeated.2
          rw [add_of_mem hname hmem]
          refine ih (fun other => ?_) hfiles
          rw [List.map_append, List.mem_append, ← hearlier, List.map_singleton, List.mem_singleton, hname]
          constructor
          · exact .inl
          · rintro (h | h)
            · exact h
            · exact Option.some.inj h ▸ hmem
      next hnew =>
          have hfresh : ∀ name, f.name = some name → name ∉ c.files.map Prod.fst := fun name hname hmem =>
            hnew ⟨by rw [hname, Option.isSome_some], hname ▸ (hearlier name).1 hmem⟩
          rw [List.flatMap_cons]
          refine (reports_add hfresh).bind fun c' hc' => ih (fun other => ?_) hfiles
          cases hname : f.name with
          | none =>
              rw [add, hname] at hc'
              cases hc'
          | some name =>
              rw [map_fst_files_of_add hname (hfresh name hname) hc', List.map_append, List.mem_append,
                List.mem_append, hearlier, List.map_singleton, hname]
              simp

/-- An encoded set is refused for the first of its elements without a name. -/
theorem reports_addSet {files : List File} (hfiles : ∀ f ∈ files, f.IsShallow)
    (hsize : (encodeSet files).length < UInt64.size) :
    Reports (addSet {} (encodeSet files)) (visits files) := by
  have hread : ∀ f ∈ files, readFile (Wire.Message.encode f) = .ok ⟨f, Wire.Message.encode f⟩ :=
    fun f hf => readFile_encode (hfiles f hf) (Nat.lt_of_le_of_lt (length_encode_le_encodeSet hf) hsize)
  rw [addSet, fileOctets_encodeSet hsize]
  exact reports_addOctets (fun name => by simp) hread

/-- A file without a fault can be added to any catalogue. -/
theorem exists_addSet_singleton {f : File} (hf : f.IsFaultless) (c : Catalogue) :
    ∃ c', addSet c (encodeSet [f]) = .ok c' := by
  have hread := readFile_encode hf.shallow
    (Nat.lt_of_le_of_lt (length_encode_le_encodeSet List.mem_cons_self) hf.length_lt)
  have hset : addSet c (encodeSet [f]) = c.add ⟨f, Wire.Message.encode f⟩ := by
    rw [addSet, fileOctets_encodeSet hf.length_lt]
    change addOctets c _ >>= pure = _
    rw [bind_pure, addOctets, hread]
    rfl
  rw [hset]
  obtain ⟨name, hname⟩ := Option.isSome_iff_exists.1 (hf.named (.file, f.name) List.mem_cons_self)
  by_cases hmem : name ∈ c.files.map Prod.fst
  · exact ⟨c, add_of_mem hname hmem⟩
  · refine (reports_add fun other hother => ?_).exists_ok hf.named
    rw [show other = name from Option.some.inj (hother.symm.trans hname)]
    exact hmem

theorem exists_foldlM_addSet {files : List File} (h : ∀ f ∈ files, f.IsFaultless) (c : Catalogue) :
    ∃ c', (files.map fun f => encodeSet [f]).foldlM addSet c = .ok c' := by
  induction files generalizing c with
  | nil => exact ⟨c, rfl⟩
  | cons f files ih =>
      obtain ⟨hf, hfiles⟩ := List.forall_mem_cons.1 h
      obtain ⟨c', hc'⟩ := exists_addSet_singleton hf c
      rw [List.map_cons, List.foldlM_cons, hc']
      exact ih hfiles c'

/-- The catalogue of a set and of files without faults is refused for the first element of the set without
a name. -/
theorem reports_ofSets {files : List File} (hfiles : ∀ f ∈ files, f.IsShallow)
    (hsize : (encodeSet files).length < UInt64.size) {others : List File} (h : ∀ f ∈ others, f.IsFaultless) :
    Reports (ofSets (encodeSet files :: others.map fun f => encodeSet [f])) (visits files) := by
  rw [← List.append_nil (visits files)]
  exact (reports_addSet hfiles hsize).bind fun c _ => exists_foldlM_addSet h c

end Catalogue

end Menagerie.Descriptor
