import Menagerie.Reflection

/-! The layout of questions and answers as messages. A choice is written under the number of what was
chosen, also when it is empty. What is read last is chosen, and if the same embedded message had been
chosen before, the two merge. -/

namespace Menagerie.Reflection

open Wire Descriptor

/-- A chosen text. -/
def writeChosenText (tag : Nat) (s : String) : List UInt8 := writeName tag (some s)

/-- A chosen message, of which the octets are given. -/
def writeChosen (tag : Nat) (body : List UInt8) : List UInt8 :=
  writeKey tag .delimited ++ writeDelimited body

/-- A value that is no message, as a step. -/
def scalar {α : Type} (read : Except Reason (α × List UInt8)) : Step α := setting id read

/-- Numbers one after the other, up to `stop` octets before the end. -/
def mergeNumbers (stop : Nat) : Nat → List Int32 → List UInt8 → Step (List Int32)
  | 0, ns, bs => .ok (ns, bs)
  | bound + 1, ns, bs =>
    if bs.length ≤ stop then .ok (ns, bs)
    else
      match readInt32 .varint bs with
      | .error e => .error ⟨e, []⟩
      | .ok (n, rest) => mergeNumbers stop bound (ns ++ [n]) rest

/-- A repeated number: one more, or a run of them behind its length. -/
def readNumbers (ns : List Int32) (t : WireType) (bs : List UInt8) : Step (List Int32) :=
  if t ≠ .delimited then setting (fun n => ns ++ [n]) (readInt32 t bs)
  else
    match readVarint bs with
    | .error e => .error ⟨e, []⟩
    | .ok (n, rest) =>
      if rest.length < n then .error ⟨.underflow, []⟩
      else
        let stop := rest.length - n
        match mergeNumbers stop rest.length ns rest with
        | .error f => .error f
        | .ok (ns, rest) => if rest.length = stop then .ok (ns, rest) else .error ⟨.overrun, []⟩

/-- A run of numbers, each extended to 64 bits with its sign. -/
def writeNumbers (tag : Nat) (ns : List Int32) : List UInt8 :=
  if ns.isEmpty then []
  else writeChosen tag (ns.flatMap writeSigned)

instance : Message Extension where
  blank := {}
  encode m := writeText 1 m.containingType ++ writeInt32 2 m.number
  mergeField depth m tag t bs :=
    match tag with
    | 1 => setField "ExtensionRequest" "containing_type" (fun s => { m with containingType := s })
        (readText t bs)
    | 2 => setField "ExtensionRequest" "extension_number" (fun n => { m with number := n })
        (readInt32 t bs)
    | tag => ignoreField depth m tag t bs

namespace Question

def encode : Question → List UInt8
  | file name => writeChosenText 3 name
  | symbol name => writeChosenText 4 name
  | extension e => writeChosen 5 (Message.encode e)
  | extensionNumbers t => writeChosenText 6 t
  | services which => writeChosenText 7 which

/-- The extension that has been asked about so far. -/
def extension? : Question → Option Extension
  | extension e => some e
  | _ => none

end Question

instance : Message Request where
  blank := {}
  encode m := writeText 1 m.host ++ m.question.elim [] Question.encode
  mergeField depth m tag t bs :=
    let ask (q : Question) : Request := { m with question := some q }
    let asking {α : Type} (q : α → Question) (read : Step α) : Step Request :=
      setEmbedded "ServerReflectionRequest" "message_request" (fun a => ask (q a)) read
    match tag with
    | 1 => setField "ServerReflectionRequest" "host" (fun s => { m with host := s }) (readText t bs)
    | 3 => asking .file (scalar (readText t bs))
    | 4 => asking .symbol (scalar (readText t bs))
    | 5 => asking .extension
        (mergeEmbedded depth ((m.question.bind Question.extension?).getD {}) t bs)
    | 6 => asking .extensionNumbers (scalar (readText t bs))
    | 7 => asking .services (scalar (readText t bs))
    | tag => ignoreField depth m tag t bs

/-- A list of file descriptors. -/
structure Files where
  encoded : List (List UInt8) := []

instance : Message Files where
  blank := {}
  encode m := m.encoded.flatMap (writeChosen 1)
  mergeField depth m tag t bs :=
    match tag with
    | 1 => setField "FileDescriptorResponse" "file_descriptor_proto"
        (fun f => { m with encoded := m.encoded ++ [f] }) (readOctets t bs)
    | tag => ignoreField depth m tag t bs

instance : Message ExtensionNumbers where
  blank := {}
  encode m := writeText 1 m.baseType ++ writeNumbers 2 m.numbers
  mergeField depth m tag t bs :=
    match tag with
    | 1 => setField "ExtensionNumberResponse" "base_type_name" (fun s => { m with baseType := s })
        (readText t bs)
    | 2 => setEmbedded "ExtensionNumberResponse" "extension_number"
        (fun ns => { m with numbers := ns }) (readNumbers m.numbers t bs)
    | tag => ignoreField depth m tag t bs

/-- A service in a list of services. -/
structure ServiceName where
  name : String := ""

instance : Message ServiceName where
  blank := {}
  encode m := writeText 1 m.name
  mergeField depth m tag t bs :=
    match tag with
    | 1 => setField "ServiceResponse" "name" (fun s => { m with name := s }) (readText t bs)
    | tag => ignoreField depth m tag t bs

/-- A list of services. -/
structure ServiceNames where
  names : List String := []

instance : Message ServiceNames where
  blank := {}
  encode m := m.names.flatMap fun n => writeChosen 1 (Message.encode (ServiceName.mk n))
  mergeField depth m tag t bs :=
    match tag with
    | 1 => setEmbedded "ListServiceResponse" "service"
        (fun (s : ServiceName) => { m with names := m.names ++ [s.name] })
        (mergeEmbedded depth Message.blank t bs)
    | tag => ignoreField depth m tag t bs

instance : Message Complaint where
  blank := {}
  encode m := writeInt32 1 m.number ++ writeText 2 m.text
  mergeField depth m tag t bs :=
    match tag with
    | 1 => setField "ErrorResponse" "error_code" (fun n => { m with number := n }) (readInt32 t bs)
    | 2 => setField "ErrorResponse" "error_message" (fun s => { m with text := s }) (readText t bs)
    | tag => ignoreField depth m tag t bs

namespace Answer

def encode : Answer → List UInt8
  | files encoded => writeChosen 4 (Message.encode (Files.mk encoded))
  | extensionNumbers ns => writeChosen 5 (Message.encode ns)
  | services names => writeChosen 6 (Message.encode (ServiceNames.mk names))
  | complaint c => writeChosen 7 (Message.encode c)

def files? : Answer → Option (List (List UInt8))
  | files encoded => some encoded
  | _ => none

def extensionNumbers? : Answer → Option ExtensionNumbers
  | extensionNumbers ns => some ns
  | _ => none

def services? : Answer → Option (List String)
  | services names => some names
  | _ => none

def complaint? : Answer → Option Complaint
  | complaint c => some c
  | _ => none

end Answer

instance : Message Response where
  blank := {}
  encode m := writeText 1 m.host ++ writeEmbedded 2 m.request ++ m.answer.elim [] Answer.encode
  mergeField depth m tag t bs :=
    let choosing {α : Type} (a : α → Answer) (read : Step α) : Step Response :=
      setEmbedded "ServerReflectionResponse" "message_response"
        (fun v => { m with answer := some (a v) }) read
    match tag with
    | 1 => setField "ServerReflectionResponse" "valid_host" (fun s => { m with host := s })
        (readText t bs)
    | 2 => setEmbedded "ServerReflectionResponse" "original_request"
        (fun r => { m with request := some r }) (mergeEmbedded depth (m.request.getD {}) t bs)
    | 4 => choosing (fun (f : Files) => .files f.encoded)
        (mergeEmbedded depth ⟨(m.answer.bind Answer.files?).getD []⟩ t bs)
    | 5 => choosing .extensionNumbers
        (mergeEmbedded depth ((m.answer.bind Answer.extensionNumbers?).getD {}) t bs)
    | 6 => choosing (fun (s : ServiceNames) => .services s.names)
        (mergeEmbedded depth ⟨(m.answer.bind Answer.services?).getD []⟩ t bs)
    | 7 => choosing .complaint
        (mergeEmbedded depth ((m.answer.bind Answer.complaint?).getD {}) t bs)
    | tag => ignoreField depth m tag t bs

end Menagerie.Reflection
