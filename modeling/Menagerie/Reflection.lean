import Menagerie.Descriptor.Set
import Menagerie.Rpc.Failure

/-! Questions about the services of a server, answered from a catalogue of file descriptors. -/

namespace Menagerie.Reflection

/-- The number of an extension of a message. -/
structure Extension where
  containingType : String := ""
  number : Int32 := 0
  deriving DecidableEq, Repr

inductive Question where
  | file (name : String)
  | symbol (name : String)
  | extension (e : Extension)
  | extensionNumbers (containingType : String)
  | services (which : String)
  deriving DecidableEq, Repr

structure Request where
  host : String := ""
  question : Option Question := none
  deriving DecidableEq, Repr

structure ExtensionNumbers where
  baseType : String := ""
  numbers : List Int32 := []
  deriving DecidableEq, Repr

/-- What went wrong with a question, as a number and a text. -/
structure Complaint where
  number : Int32 := 0
  text : String := ""
  deriving DecidableEq, Repr

inductive Answer where
  /-- Encoded file descriptors. -/
  | files (encoded : List (List UInt8))
  | extensionNumbers (ns : ExtensionNumbers)
  | services (names : List String)
  | complaint (c : Complaint)
  deriving DecidableEq, Repr

structure Response where
  host : String := ""
  request : Option Request := none
  answer : Option Answer := none
  deriving DecidableEq, Repr

/-- Answers a question. No message has extensions, and every type is taken to have no numbers of
them. -/
def answer (c : Descriptor.Catalogue) : Question → Except Rpc.Failure Answer
  | .file name =>
    match c.file? name with
    | some entry => .ok (.files [entry.octets])
    | none => .error (.unknownFile name)
  | .symbol name =>
    match c.declaring? name with
    | some entry => .ok (.files [entry.octets])
    | none => .error (.unknownSymbol name)
  | .extension _ => .error .noExtensions
  | .extensionNumbers _ => .ok (.extensionNumbers {})
  | .services _ => .ok (.services c.services)

/-- Responds to a request, which comes back in the response. -/
def respond (c : Descriptor.Catalogue) (r : Request) : Except Rpc.Failure Response :=
  match r.question with
  | none => .error .emptyQuestion
  | some q => (answer c q).map fun a => ⟨r.host, some r, some a⟩

/-- Responds to requests in order, up to the first one that fails. -/
def respondAll (c : Descriptor.Catalogue) : List Request → List Response × Option Rpc.Failure
  | [] => ([], none)
  | r :: rest =>
    match respond c r with
    | .error f => ([], some f)
    | .ok a =>
      let (more, failure) := respondAll c rest
      (a :: more, failure)

end Menagerie.Reflection
