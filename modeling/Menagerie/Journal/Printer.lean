import Menagerie.Journal
import Menagerie.Text.JsonText
import Menagerie.Text.Quoted

/-! Entries as texts: records for programs, one JSON object a line, or some lines for people, with
colours or without. The time is given as a text. Which thread an event comes from and where it stands in
the source is left out: the fields `threadId`, `filename` and `line_number` of a record, and the line for
people that begins with `at`. -/

namespace Menagerie.Journal

inductive Style where
  | records
  | lines (coloured : Bool)
  deriving DecidableEq, Repr

/-! ## Records -/

def Value.json : Value → String
  | quoted s => Text.JsonText.text s
  | bare s => Text.JsonText.text s
  | number n => toString n
  | flag b => toString b

def Values.json (vs : Values) : List (String × String) := vs.map fun v => (v.1, v.2.json)

/-- A span as an object of its values and its name. -/
def Span.json (s : Span) : String :=
  Text.JsonText.object (s.values.json ++ [("name", Text.JsonText.text s.name)])

/-- The fields of a record but the time. Inside spans it holds the innermost one and all of them, the
outermost first. -/
def Entry.recordFields (e : Entry) : List (String × String) :=
  [("level", Text.JsonText.text e.event.level.label),
    ("fields", Text.JsonText.object
      (("message", Text.JsonText.text e.event.message) :: e.event.values.json)),
    ("target", Text.JsonText.text e.event.target)]
    ++ match e.spans.getLast? with
      | none => []
      | some s => [("span", s.json), ("spans", Text.JsonText.list (e.spans.map Span.json))]

def Entry.record (time : String) (e : Entry) : String :=
  Text.JsonText.object (("timestamp", Text.JsonText.text time) :: e.recordFields) ++ "\n"

/-! ## Lines for people -/

def Value.shown : Value → String
  | quoted s => Text.quote s
  | bare s => s
  | number n => toString n
  | flag b => toString b

/-- The colour of a level. -/
def colourOf : Level → String
  | .error => "31"
  | .warn => "33"
  | .info => "32"
  | .debug => "34"
  | .trace => "35"

/-- What switches colours and weights on. -/
def sgr (codes : String) : String := "\x1b[" ++ codes ++ "m"

/-- A text in a style that ends with it; without colours just the text. -/
def styled (coloured : Bool) (codes s : String) : String :=
  if coloured then sgr codes ++ s ++ sgr "0" else s

/-- A level, right-aligned. -/
def labelOf (l : Level) : String :=
  String.ofList (List.replicate (5 - l.label.length) ' ') ++ l.label

/-- The line of an event. Its colour is switched on again behind every name in bold. -/
def Event.line (coloured : Bool) (time : String) (e : Event) : String :=
  let colour := colourOf e.level
  let on := if coloured then sgr colour else ""
  let off := if coloured then sgr "0" else ""
  let named (name : String) : String := styled coloured ("1;" ++ colour) name ++ on
  "  " ++ styled coloured "2" time ++ " " ++ styled coloured colour (labelOf e.level) ++ " "
    ++ named e.target ++ ": " ++ on ++ e.message
    ++ String.join (e.values.map fun v => ", " ++ named v.1 ++ ": " ++ v.2.shown) ++ off

/-- The line of a span. -/
def Span.line (coloured : Bool) (s : Span) : String :=
  let values := s.values.map fun v => styled coloured "1" v.1 ++ ": " ++ v.2.shown
  "    " ++ styled coloured "2;3" "in" ++ " " ++ s.target ++ "::" ++ styled coloured "1" s.name
    ++ if values.isEmpty then "" else
      " " ++ styled coloured "2;3" "with" ++ " " ++ ", ".intercalate values

/-- The line of the event, those of its spans, the innermost first, and an empty one. -/
def Entry.lines (coloured : Bool) (time : String) (e : Entry) : String :=
  String.join ((e.event.line coloured time :: e.spans.reverse.map (Span.line coloured)).map (· ++ "\n"))
    ++ "\n"

def Entry.print (style : Style) (time : String) (e : Entry) : String :=
  match style with
  | .records => e.record time
  | .lines coloured => e.lines coloured time

end Menagerie.Journal
