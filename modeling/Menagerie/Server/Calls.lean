import Menagerie.Health
import Menagerie.Pet.Calls
import Menagerie.Reflection.Layout
import Menagerie.Rpc.Reply
import Menagerie.Server.Composition

/-! Calls to a server. The path of a call names a service and one of its methods. A method that takes one
message refuses a body that is not in order; a method that takes many answers them one by one and stops
at the first that cannot be read. -/

namespace Menagerie

open Rpc

/-- The method that a path names behind the path of a service. -/
def Service.method? (s : Service) (path : String) : Option String :=
  let stem := ("/" ++ s.path ++ "/").toList
  if stem.isPrefixOf path.toList then some (String.ofList (path.toList.drop stem.length)) else none

/-- The service that a path leads to, and the method named there. -/
def Routes.locate? (r : Routes) (path : String) : Option (Service × String) :=
  r.services.findSome? fun s => (s.method? path).map fun m => (s, m)

/-- The codings that a service knows. -/
def Endpoint.codings : Endpoint → List Coding
  | pets => Coding.all
  | _ => []

namespace Rpc.Call

/-- The path without a query. -/
def target (c : Call) : String := String.ofList (c.path.toList.takeWhile (· ≠ '?'))

/-- The messages in the body of a call. -/
def received (codecs : Coding → Codec) (known : List Coding) (c : Call) : Except Failure Messages :=
  match Coding.announced known c.headers with
  | .error name => .error (.unknownCoding name known)
  | .ok coding => .ok (readMessages (coding.map codecs) c.body)

/-- The one message of a call. -/
def single {α : Type} (codecs : Coding → Codec) (known : List Coding)
    (read : List UInt8 → Except Wire.Fault α) (c : Call) : Except Failure α :=
  match c.received codecs known with
  | .error f => .error f
  | .ok ms => ms.single read

end Rpc.Call

/-- A reply that begins with one message, unless there is none. -/
def Rpc.Reply.ofResult (coding : Option Coding) (ending : AnswerEnd) :
    Except Failure (List UInt8) → Reply
  | .error f => .refused f
  | .ok content => .answered coding [content] ending

namespace Health

/-- The status that a request asks for, as a message. -/
def check (r : Except Failure HealthCheckRequest) : Except Failure (List UInt8) :=
  match r with
  | .error f => .error f
  | .ok r =>
    match r.status? with
    | none => .error .unknownService
    | some s => .ok (Wire.Message.encode (HealthCheckResponse.mk s.number))

/-- Answers a call; whoever watches a service learns its status and then waits for a change. -/
def reply (codecs : Coding → Codec) (known : List Coding) (method : String) (c : Call) : Reply :=
  let checked := check (c.single codecs known (Wire.decode HealthCheckRequest))
  let coding := Coding.accepted known c.headers
  match method with
  | "Check" => .ofResult coding .complete checked
  | "Watch" => .ofResult coding .unending checked
  | _ => .refused .unknownMethod

end Health

namespace Reflection

/-- Answers a call; requests behind one that cannot be read are not answered. -/
def reply (catalogue : Descriptor.Catalogue) (codecs : Coding → Codec) (known : List Coding)
    (method : String) (c : Call) : Reply :=
  match method with
  | "ServerReflectionInfo" =>
    match c.received codecs known with
    | .error f => .refused f
    | .ok ms =>
      let (responses, failure) := respondAll catalogue (ms.decode (Wire.decode Request)).1
      .answered (Coding.accepted known c.headers) (responses.map Wire.Message.encode)
        (failure.elim .complete .failed)
  | _ => .refused .unknownMethod

end Reflection

namespace PetService

/-- Answers a call of a method. -/
def replyTo (ids : Nat → String) (codecs : Coding → Codec) (known : List Coding) (s : PetService)
    (m : PetMethod) (c : Call) : Reply × PetService :=
  let (result, after) := s.reply ids (c.single codecs known fun payload => m.read payload)
  (.ofResult (Coding.accepted known c.headers) .complete result, after)

end PetService

/-- A server at work. -/
structure ServerState where
  routes : Routes
  pets : PetService := {}

namespace ServerState

/-- Answers a call. -/
def answer (ids : Nat → String) (codecs : Coding → Codec) (s : ServerState) (c : Call) :
    Reply × ServerState :=
  match s.routes.locate? c.target with
  | none => (.refused .unknownMethod, s)
  | some (service, method) =>
    let known := service.endpoint.codings
    match service.endpoint with
    | .health => (Health.reply codecs known method c, s)
    | .reflection catalogue => (Reflection.reply catalogue codecs known method c, s)
    | .pets =>
      match PetMethod.ofName? method with
      | none => (.refused .unknownMethod, s)
      | some m =>
        let (reply, pets) := s.pets.replyTo ids codecs known m c
        (reply, { s with pets })

/-- Answers calls in order. -/
def answerAll (ids : Nat → String) (codecs : Coding → Codec) : ServerState → List Call → List Reply
  | _, [] => []
  | s, c :: rest =>
    let (reply, after) := s.answer ids codecs c
    reply :: after.answerAll ids codecs rest

/-- The server when it has answered calls in order. -/
def after (ids : Nat → String) (codecs : Coding → Codec) : ServerState → List Call → ServerState
  | s, [] => s
  | s, c :: rest => (s.answer ids codecs c).2.after ids codecs rest

theorem answerAll_cons (ids : Nat → String) (codecs : Coding → Codec) (s : ServerState) (c : Call)
    (calls : List Call) :
    s.answerAll ids codecs (c :: calls) =
      (s.answer ids codecs c).1 :: (s.answer ids codecs c).2.answerAll ids codecs calls := rfl

theorem answerAll_append (ids : Nat → String) (codecs : Coding → Codec) (s : ServerState)
    (calls more : List Call) :
    s.answerAll ids codecs (calls ++ more) =
      s.answerAll ids codecs calls ++ (s.after ids codecs calls).answerAll ids codecs more := by
  induction calls generalizing s with
  | nil => rfl
  | cons c calls ih => exact congrArg ((s.answer ids codecs c).1 :: ·) (ih (s.answer ids codecs c).2)

end ServerState

/-- The server before its first call. -/
def ComposedServer.begin (s : ComposedServer) : ServerState := { routes := s.routes }

/-- The server at work with these pets. -/
def ComposedServer.keeping (s : ComposedServer) (pets : PetService) : ServerState :=
  { routes := s.routes, pets }

end Menagerie
