import Menagerie.Filter.DirectiveReader
import Menagerie.Filter.DirectiveSet
import Menagerie.Environment
import Menagerie.LogSettings

/-! Log filters. A filter is a list of directives between commas. The static ones decide about an event
by its target: the most specific one that is about it does. A dynamic one lets events through, whatever
the static ones say, inside the spans that it is about. -/

namespace Menagerie

structure LogFilter where
  statics : Filter.DirectiveSet Filter.StaticDirective := {}
  dynamics : Filter.DirectiveSet Filter.Directive := {}
  deriving DecidableEq, Repr

namespace LogFilter

open Menagerie.Filter

/-- The static directives come first, then what the dynamic ones say about events in any span. -/
def ofDirectives (ds : List Directive) : LogFilter :=
  let (dynamics, statics) := ds.partition (·.isDynamic)
  { statics := .ofList (statics.filterMap Directive.static? ++ dynamics.filterMap Directive.static?)
    dynamics := .ofList dynamics }

/-- The pieces of a text between commas. -/
def splitCommas : List Char → List (List Char)
  | [] => [[]]
  | c :: rest =>
    if c == ',' then [] :: splitCommas rest
    else
      match splitCommas rest with
      | [] => [[c]]
      | piece :: pieces => (c :: piece) :: pieces

/-- The pieces of a text that are not empty. -/
def pieces (s : String) : List (List Char) := (splitCommas s.toList).filter (!·.isEmpty)

/-- Reads a filter; the first piece that is no directive decides about the fault. -/
def read (s : String) : Except DirectiveFault LogFilter :=
  match (pieces s).mapM Directive.read with
  | .ok ds => .ok (ofDirectives ds)
  | .error f => .error f

def print (f : LogFilter) : String :=
  ",".intercalate (f.statics.entries.map StaticDirective.print ++ f.dynamics.entries.map Directive.print)

/-- The most verbose level that the filter can let through. -/
def maxLevel (f : LogFilter) : Threshold :=
  if f.dynamics.entries.any (·.hasValue) then .trace
  else f.statics.maxLevel.max f.dynamics.maxLevel

/-- Whether the most specific directive about an event lets it through. -/
def admitsByTarget (f : LogFilter) (e : Journal.Event) : Bool :=
  match f.statics.entries.find? (·.isAboutEvent e.target e.valueNames) with
  | some d => d.level.admits e.level
  | none => false

/-- The dynamic directives about a span. -/
def about (f : LogFilter) (s : Journal.Span) : List Directive :=
  f.dynamics.entries.filter (·.isAbout s)

/-- Whether a span is shown: a dynamic directive is about it, or the most specific static one admits
information. -/
def showsSpan (f : LogFilter) (s : Journal.Span) : Bool :=
  f.maxLevel.admits .info
    && (!(f.about s).isEmpty
      || (f.statics.entries.find? (·.isAboutSpan s.target)).any (·.level.admits .info))

/-- The threshold that the dynamic directives set inside a span. -/
def thresholdIn (f : LogFilter) (s : Journal.Span) : Threshold :=
  ((f.about s).map (·.thresholdIn s)).foldl Threshold.max .off

/-- Whether an event inside the spans that are shown is let through. -/
def admits (f : LogFilter) (spans : List Journal.Span) (e : Journal.Event) : Bool :=
  f.maxLevel.admits e.level
    && ((f.dynamics.maxLevel.admits e.level && spans.any fun s => (f.thresholdIn s).admits e.level)
      || f.admitsByTarget e)

/-- What is left of an entry: the spans that are shown, if its event is let through. -/
def pass? (f : LogFilter) (e : Journal.Entry) : Option Journal.Entry :=
  let spans := e.spans.filter f.showsSpan
  if f.admits spans e.event then some ⟨spans, e.event⟩ else none

/-- The filter in force: that of a variable if it is a text that can be read, else that of the
settings. -/
def choose (preferred : Option String) (logLevel : String) : Except DirectiveFault LogFilter :=
  match preferred with
  | none => read logLevel
  | some s =>
    match read s with
    | .ok f => .ok f
    | .error .offBoundary => .error .offBoundary
    | .error _ => read logLevel

/-- The variable that holds a filter. -/
def variableName : String := "RUST_LOG"

end LogFilter

/-- Why logging does not begin. -/
inductive LogFault where
  | invalidFilter (f : Filter.DirectiveFault)
  | alreadySet
  deriving DecidableEq, Repr

def LogFault.message : LogFault → String
  | invalidFilter f => "Invalid telemetry configuration: Invalid log level: " ++ f.message
  | alreadySet =>
    "Tracing subscriber error: a global default trace dispatcher has already been set"

/-- The filter of some settings in an environment. -/
def LogSettings.filter (s : LogSettings) (env : Environment) : Except LogFault LogFilter :=
  match LogFilter.choose (env.text? LogFilter.variableName) s.logLevel with
  | .ok f => .ok f
  | .error f => .error (.invalidFilter f)

end Menagerie
