import Menagerie.Environment.Colour
import Menagerie.Filter
import Menagerie.Journal.Occurrences
import Menagerie.Journal.Printer

/-! Logging once it has begun: a filter and a style. It begins once in a process, and announces itself. -/

namespace Menagerie

structure Logging where
  filter : LogFilter
  style : Journal.Style
  deriving DecidableEq, Repr

namespace Logging

/-- Logging under some settings. -/
def ofSettings (s : LogSettings) (env : Environment) : Except LogFault Logging :=
  match s.filter env with
  | .error f => .error f
  | .ok filter => .ok ⟨filter, if s.jsonLogs then .records else .lines env.coloursLog⟩

/-- Begins logging unless it has begun; a filter that cannot be read is reported first. -/
def begin? (current : Option Logging) (s : LogSettings) (env : Environment) :
    Except LogFault Logging :=
  match ofSettings s env, current with
  | .error f, _ => .error f
  | .ok _, some _ => .error .alreadySet
  | .ok l, none => .ok l

/-- The entries that the filter lets through. -/
def passed (l : Logging) (es : List Journal.Entry) : List Journal.Entry := es.filterMap l.filter.pass?

/-- What is written for some entries. -/
def write (l : Logging) (time : String) (es : List Journal.Entry) : String :=
  String.join ((l.passed es).map (Journal.Entry.print l.style time))

end Logging

end Menagerie
