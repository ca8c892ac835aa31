import Menagerie.Journal.Occurrences
import Menagerie.Store.Handles

/-! A session over stores, listeners and servers that are tried out: every step gives an answer and the
entries that it would log. -/

namespace Menagerie

open Journal

structure Session where
  handles : Handles := Handles.single
  listeners : Listeners := {}

inductive SessionStep where
  | pets (step : HandleStep)
  /-- Listens at a port, and keeps the listener if a slot is named. -/
  | acquire (port : PortChoice) (slot : Option String)
  | close (slot : String)
  | compose (plan : ServerPlan)
  /-- Starts a server while other programs hold some ports, and stops it again. -/
  | start (plan : ServerPlan) (taken : List UInt16)

inductive SessionAnswer where
  | pets (a : HandleAnswer)
  | acquired (result : Except StartupError UInt16)
  | closed (wasOpen : Bool)
  | composed (c : Composition)
  | started (r : StartReport)

/-- What a step gives: its answer, what it logs, and the session after it. -/
structure SessionReport where
  answer : SessionAnswer
  entries : List Entry := []
  after : Session

namespace HandleStep

/-- What a step over the stores logs, if its handle exists. -/
def entries (ids : Nat → String) (hs : Handles) : HandleStep → List Entry
  | .request _ r => r.entries (ids hs.drawn)
  | _ => []

end HandleStep

namespace Session

/-- One step. It gives nothing if it names a handle or a slot that has not been used. -/
def step (ids : Nat → String) (s : Session) : SessionStep → Option SessionReport
  | .pets p =>
    (s.handles.step ids p).map fun (a, handles) =>
      ⟨.pets a, p.entries ids s.handles, { s with handles }⟩
  | .acquire choice slot =>
    (s.listeners.port? choice).map fun port =>
      let (result, listeners) :=
        s.listeners.acquire (Network.freePort s.listeners.held) port slot
      ⟨.acquired result, [], { s with listeners }⟩
  | .close slot =>
    let (wasOpen, listeners) := s.listeners.close slot
    some ⟨.closed wasOpen, [], { s with listeners }⟩
  | .compose plan =>
    let c := Menagerie.compose plan.registrations
    some ⟨.composed c, c.entries [], s⟩
  | .start plan taken =>
    let r := Menagerie.start (.ofHeld (s.listeners.held ++ taken)) plan.settings plan.registrations
    some ⟨.started r, r.entries plan.settings, s⟩

/-- Steps in order, up to one that gives nothing. -/
def run (ids : Nat → String) : Session → List SessionStep → List SessionReport
  | _, [] => []
  | s, st :: rest =>
    match s.step ids st with
    | none => []
    | some r => r :: r.after.run ids rest

end Session

end Menagerie
