import Menagerie.Rpc.Frame
import Menagerie.Text.Percent

/-! Calls and replies as a caller sees them. The status of a call stands in the headers of the reply if
no answer was begun, and in its trailers otherwise. -/

namespace Menagerie.Rpc

/-- A call of the method at a path. -/
structure Call where
  path : String
  headers : Headers := []
  body : List UInt8 := []

/-- How an answer that was begun ends. -/
inductive AnswerEnd where
  | complete
  | failed (f : Failure)
  /-- More messages may come at any time. -/
  | unending
  deriving DecidableEq, Repr

inductive Reply where
  /-- No answer was begun. -/
  | refused (f : Failure)
  | answered (coding : Option Coding) (messages : List (List UInt8)) (ending : AnswerEnd)
  deriving DecidableEq, Repr

/-- The headers that carry a status; an empty text is left out. -/
def statusHeaders (code : Code) (message : String) : Headers :=
  ("grpc-status", toString code.number)
    :: (if message = "" then [] else [("grpc-message", Text.percentEncode message)])

namespace Failure

/-- The headers by which a caller learns of a failure. -/
def allHeaders (f : Failure) : Headers := statusHeaders f.code f.message ++ f.headers

end Failure

/-- The header that every reply begins with. -/
def contentType : String × String := ("content-type", "application/grpc")

namespace Reply

def headers : Reply → Headers
  | refused f => contentType :: f.allHeaders
  | answered coding _ _ => contentType :: coding.toList.map fun c => (Coding.header, c.name)

/-- The messages behind their flags and lengths, packed if a coding was agreed on. -/
def body (codecs : Coding → Codec) : Reply → List UInt8
  | refused _ => []
  | answered coding messages _ => messages.flatMap (writeMessage (coding.map codecs))

def trailers : Reply → Option Headers
  | refused _ => none
  | answered _ _ .complete => some (statusHeaders .ok "")
  | answered _ _ (.failed f) => some f.allHeaders
  | answered _ _ .unending => none

/-- Whether the reply comes to an end. -/
def ends : Reply → Bool
  | answered _ _ .unending => false
  | _ => true

/-- Why a call failed, at its start or later. -/
def failure? : Reply → Option Failure
  | refused f => some f
  | answered _ _ (.failed f) => some f
  | _ => none

def messages : Reply → List (List UInt8)
  | refused _ => []
  | answered _ ms _ => ms

end Reply

end Menagerie.Rpc
