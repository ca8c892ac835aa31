import Menagerie.Level

/-! What is logged. An event has a level, a target, a message and named values; it happens inside spans,
which have a name, a target and values of their own. -/

namespace Menagerie.Journal

inductive Value where
  /-- A text that people see in quotes. -/
  | quoted (s : String)
  /-- A text that people see as it is. -/
  | bare (s : String)
  | number (n : Int)
  | flag (b : Bool)
  deriving DecidableEq, Repr

abbrev Values := List (String × Value)

/-- Every span has the level of information. -/
structure Span where
  name : String
  target : String
  values : Values
  deriving DecidableEq, Repr

structure Event where
  level : Level
  target : String
  message : String
  values : Values := []
  deriving DecidableEq, Repr

/-- An event inside spans, the outermost first. -/
structure Entry where
  spans : List Span := []
  event : Event
  deriving DecidableEq, Repr

/-- The names under which an event has values; its message counts as one. -/
def Event.valueNames (e : Event) : List String := "message" :: e.values.map (·.1)

end Menagerie.Journal
