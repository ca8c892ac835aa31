import Mathlib.Logic.Function.Basic
import Menagerie.Journal.Logging
import Menagerie.Session
import Menagerie.Store.History
import Menagerie.Text.JsonReader

/-! Logs read back. The record of an entry is an object, and what it tells about a store can be done again
without the store. -/

namespace Menagerie

open Text (Json)

/-! ### Records as values -/

namespace Journal

def Value.asJson : Value → Json
  | quoted s => .text s
  | bare s => .text s
  | number n => .word (toString n)
  | flag b => .word (toString b)

def Values.asJson (vs : Values) : List (String × Json) := vs.map fun v => (v.1, v.2.asJson)

def Span.asJson (s : Span) : Json := .object (Values.asJson s.values ++ [("name", .text s.name)])

def Entry.asJson (time : String) (e : Entry) : Json :=
  .object (("timestamp", .text time) ::
    ([("level", .text e.event.level.label),
      ("fields", .object (("message", .text e.event.message) :: Values.asJson e.event.values)),
      ("target", .text e.event.target)]
      ++ match e.spans.getLast? with
        | none => []
        | some s => [("span", s.asJson), ("spans", .list (e.spans.map Span.asJson))]))

end Journal

/-! ### What a log tells about a store -/

/-- Something done to a store. -/
inductive Operation where
  | put (id name : String)
  | get (id : String)
  | delete (id : String)
  deriving DecidableEq, Repr

namespace Operation

/-- What a line of a log tells: the pet of a put stands with its message, the id of any other request with
the span around it. -/
def ofLine? (line : Json) : Option Operation :=
  match line.textAt? ["fields", "message"] with
  | some "PutPet" =>
    match line.textAt? ["fields", "pet_id"], line.textAt? ["fields", "name"] with
    | some id, some name => some (put id name)
    | _, _ => none
  | some "GetPet" => (line.textAt? ["span", "pet_id"]).map get
  | some "DeletePet" => (line.textAt? ["span", "pet_id"]).map delete
  | _ => none

/-- The names of pets under their ids, after an operation. -/
def apply (names : String → Option String) : Operation → String → Option String
  | put id name => Function.update names id (some name)
  | get _ => names
  | delete id => Function.update names id none

/-- The names of pets under their ids, after operations on an empty store. -/
def replay (operations : List Operation) : String → Option String := operations.foldl apply fun _ => none

end Operation

/-- What was done to a store: a put that was granted, and a get or a delete, be it granted or not. -/
def HandleEvent.operation? : HandleEvent → Option Operation
  | ⟨.request _ (.put _), .response (.put ⟨some p⟩)⟩ => some (.put p.id p.name)
  | ⟨.request _ (.get r), _⟩ => some (.get r.id)
  | ⟨.request _ (.delete r), _⟩ => some (.delete r.id)
  | _ => none

/-- What was done in a step of a session, as its answer tells. -/
def SessionReport.operation? (r : SessionReport) (st : HandleStep) : Option Operation :=
  match r.answer with
  | .pets a => (HandleEvent.mk st a).operation?
  | _ => none

/-- What was done in a session, step by step. -/
def Session.operations (steps : List HandleStep) (reports : List SessionReport) : List Operation :=
  (steps.zip reports).filterMap fun (st, r) => r.operation? st

/-- A session after the last of its steps. -/
def Session.last (s : Session) (reports : List SessionReport) : Session := reports.getLast?.elim s (·.after)

/-- The names of the pets in the first store, under their ids. -/
def Handles.names (hs : Handles) (id : String) : Option String := (hs.contents 0 id).map (·.name)

end Menagerie
