import Menagerie.Rpc.Coding
import Menagerie.Store
import Menagerie.Wire.Fault

/-! Why a call fails, and the status by which the caller learns of it. -/

namespace Menagerie.Rpc

inductive Code where
  | ok | invalidArgument | notFound | outOfRange | unimplemented | internal
  deriving DecidableEq, Repr

def Code.number : Code → Nat
  | ok => 0
  | invalidArgument => 3
  | notFound => 5
  | outOfRange => 11
  | unimplemented => 12
  | internal => 13

/-- Messages may not be longer than this. -/
def lengthLimit : Nat := 4194304

inductive Failure where
  /-- There is no such method. -/
  | unknownMethod
  /-- The messages are packed in a way that the service does not know. -/
  | unknownCoding (name : String) (known : List Coding)
  | missingMessage
  /-- The request ends inside a message. -/
  | unfinishedMessage
  | unannouncedCoding
  | invalidFlag (flag : UInt8)
  | tooLong (length : Nat)
  | unpacking (reason : String)
  | undecodable (fault : Wire.Fault)
  | refused (r : Refusal)
  /-- Health is not known of a service. -/
  | unknownService
  | unknownSymbol (name : String)
  | unknownFile (name : String)
  | noExtensions
  /-- A reflection request asks for nothing. -/
  | emptyQuestion
  deriving DecidableEq, Repr

namespace Failure

def code : Failure → Code
  | unknownMethod => .unimplemented
  | unknownCoding .. => .unimplemented
  | tooLong _ => .outOfRange
  | refused (.notFound _) => .notFound
  | refused .blankName => .invalidArgument
  | unknownService => .notFound
  | unknownSymbol _ => .notFound
  | unknownFile _ => .notFound
  | noExtensions => .notFound
  | emptyQuestion => .invalidArgument
  | _ => .internal

def message : Failure → String
  | unknownMethod => ""
  | unknownCoding name _ => "Content is compressed with \x60" ++ name ++ "\x60 which isn't supported"
  | missingMessage => "Missing request message."
  | unfinishedMessage => "Unexpected EOF decoding stream."
  | unannouncedCoding =>
    "protocol error: received message with compressed-flag but no grpc-encoding was specified"
  | invalidFlag flag =>
    s!"protocol error: received message with invalid compression flag: {flag.toNat} "
      ++ "(valid flags are 0 and 1), while sending request"
  | tooLong length =>
    s!"Error, decoded message length too large: found {length} bytes, "
      ++ s!"the limit is: {lengthLimit} bytes"
  | unpacking reason => s!"Error decompressing: {reason}, while sending request"
  | undecodable fault => fault.message
  | refused r => r.message
  | unknownService => "service not registered"
  | unknownSymbol name => s!"symbol '{name}' not found"
  | unknownFile name => s!"file '{name}' not found"
  | noExtensions => "extensions are not supported"
  | emptyQuestion => "invalid MessageRequest"

/-- What a failure says beside its status. -/
def headers : Failure → Headers
  | unknownCoding _ known => [(Coding.acceptHeader, Coding.offer known)]
  | _ => []

end Failure

end Menagerie.Rpc
