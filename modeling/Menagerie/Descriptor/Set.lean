import Menagerie.Descriptor.Layout
import Menagerie.Descriptor.Symbols

/-! Sets of file descriptors, and the catalogue of what they describe. A set is a run of fields of
which the delimited ones with number one are files. A later file with the name of an earlier one is
passed over. -/

namespace Menagerie.Descriptor

/-- The octets of the files in an encoded set; every field takes octets, so `bound` is the length of
the input. -/
def fileOctetsFrom : Nat → List UInt8 → Except SetFault (List (List UInt8))
  | 0, _ => .ok []
  | bound + 1, bs =>
    if bs.isEmpty then .ok []
    else
      match Wire.readKey bs with
      | .error _ => .error .undecodable
      | .ok ((tag, t), rest) =>
        let skipping (n : Nat) :=
          if rest.length < n then .error .unexpectedEnd else fileOctetsFrom bound (rest.drop n)
        match t with
        | .varint =>
          match Wire.readVarint rest with
          | .error _ => .error .undecodable
          | .ok (_, rest) => fileOctetsFrom bound rest
        | .fixed64 => skipping 8
        | .fixed32 => skipping 4
        | .groupStart => .error .unexpectedGroup
        | .groupEnd => .error .unexpectedGroup
        | .delimited =>
          match Wire.readVarint rest with
          | .error _ => .error .undecodable
          | .ok (n, rest) =>
            if rest.length < n then .error .unexpectedEnd
            else
              match fileOctetsFrom bound (rest.drop n) with
              | .error e => .error e
              | .ok files => .ok (if tag = 1 then rest.take n :: files else files)

def fileOctets (bs : List UInt8) : Except SetFault (List (List UInt8)) := fileOctetsFrom bs.length bs

/-- A file as it was read, and as octets. -/
structure FileEntry where
  file : File
  octets : List UInt8

def readFile (octets : List UInt8) : Except SetFault FileEntry :=
  match Wire.decode File octets with
  | .ok file => .ok ⟨file, octets⟩
  | .error _ => .error .undecodable

/-- An encoded set of files. -/
def encodeSet (files : List File) : List UInt8 := writeAll Wire.Message.encode 1 files

/-- Files by their names and by the symbols in them, and the services they declare. -/
structure Catalogue where
  files : List (String × FileEntry) := []
  symbols : List (String × FileEntry) := []
  services : List String := []

namespace Catalogue

/-- Adds a file unless one of its name is there. -/
def add (c : Catalogue) (entry : FileEntry) : Except SetFault Catalogue :=
  match entry.file.name with
  | none => .error (.unnamed .file)
  | some name =>
    if c.files.any (·.1 = name) then .ok c
    else
      match entry.file.symbols with
      | .error e => .error e
      | .ok symbols => .ok {
          files := c.files ++ [(name, entry)]
          symbols := (symbols.map fun s => (s, entry)).reverse ++ c.symbols
          services := c.services ++ entry.file.serviceNames }

/-- Adds the files of an encoded set. Its fields are told apart before any file is read, and every
file is added before the next one is read. -/
def addSet (c : Catalogue) (bs : List UInt8) : Except SetFault Catalogue := do
  (← fileOctets bs).foldlM (fun c octets => do c.add (← readFile octets)) c

/-- The catalogue of encoded sets. -/
def ofSets (sets : List (List UInt8)) : Except SetFault Catalogue := sets.foldlM addSet {}

/-- The file of a name. -/
def file? (c : Catalogue) (name : String) : Option FileEntry :=
  (c.files.find? (·.1 = name)).map (·.2)

/-- The file that declares a symbol; of several the last one added. -/
def declaring? (c : Catalogue) (symbol : String) : Option FileEntry :=
  (c.symbols.find? (·.1 = symbol)).map (·.2)

end Catalogue

end Menagerie.Descriptor
