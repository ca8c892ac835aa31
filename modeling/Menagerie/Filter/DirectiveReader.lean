import Menagerie.Filter.Directive
import Menagerie.Text.Blank

/-! Directives as texts: `target[span{field=value}]=level`, of which every part can be missing. The text
is read without the blanks at its ends, but every part is cut out of the text with them, at the same
distance in octets from its start. Blanks in front therefore shift all parts, and a cut inside a
character aborts the program. -/

namespace Menagerie.Filter

inductive DirectiveFault where
  | malformed
  | badLevel
  | badPattern (f : Pattern.Fault)
  /-- A cut does not fall between two characters; the program is aborted. -/
  | offBoundary
  deriving DecidableEq, Repr

def DirectiveFault.message : DirectiveFault → String
  | malformed => "invalid filter directive"
  | badLevel => "error parsing level filter: expected one of \"off\", \"error\", \"warn\", \"info\", "
      ++ "\"debug\", \"trace\", or a number 0-5"
  | badPattern f => "invalid field filter: " ++ f.message
  | offBoundary => "aborted"

/-- What follows the first `n` octets, if they are whole characters. -/
def dropOctets? : List Char → Nat → Option (List Char)
  | [], n => if n = 0 then some [] else none
  | c :: rest, n =>
    if n = 0 then some (c :: rest)
    else if c.utf8Size ≤ n then dropOctets? rest (n - c.utf8Size)
    else none

/-- The first `n` octets, if they are whole characters. -/
def takeOctets? : List Char → Nat → Option (List Char)
  | [], n => if n = 0 then some [] else none
  | c :: rest, n =>
    if n = 0 then some []
    else if c.utf8Size ≤ n then (takeOctets? rest (n - c.utf8Size)).map (c :: ·)
    else none

/-- The part of a text between two distances from its start. -/
def cut (cs : List Char) (start stop : Nat) : Except DirectiveFault (List Char) :=
  if stop < start then .error .offBoundary
  else
    match (dropOctets? cs start).bind fun rest => takeOctets? rest (stop - start) with
    | some part => .ok part
    | none => .error .offBoundary

/-- The part of a text from a distance on. -/
def cutFrom (cs : List Char) (start : Nat) : Except DirectiveFault (List Char) :=
  match dropOctets? cs start with
  | some part => .ok part
  | none => .error .offBoundary

/-- How far a directive has been read; some states know where their part started. -/
inductive DirectiveState where
  | start
  | levelOrTarget
  | span (start : Nat)
  | field (start : Nat)
  | fields
  | target
  | level (start : Nat)
  deriving DecidableEq, Repr

/-- A name that is missing when it is empty. -/
def nonempty (cs : List Char) : Option String := if cs.isEmpty then none else some (String.ofList cs)

namespace Directive

def startsName (c : Char) : Bool := c == '-' || c == ':' || c == '_' || Text.isAlphanumeric c

/-- One character `c`, found `i` octets from the start of the trimmed text. -/
def step (text : List Char) (i : Nat) (c : Char) (d : Directive) :
    DirectiveState → Except DirectiveFault (Directive × DirectiveState)
  | .start =>
    if c == '[' then .ok (d, .span (i + 1))
    else if startsName c then .ok (d, .levelOrTarget)
    else .error .malformed
  | .levelOrTarget =>
    if c == '=' then do
      let name ← cut text 0 i
      .ok ({ d with target := some (String.ofList name) }, .level (i + 1))
    else if c == '[' then do
      let name ← cut text 0 i
      .ok ({ d with target := some (String.ofList name) }, .span (i + 1))
    else .ok (d, .levelOrTarget)
  | .span start =>
    if c == ']' then do
      let name ← cut text start i
      .ok ({ d with span := some (String.ofList name) }, .target)
    else if c == '\x7b' then do
      let name ← cut text start i
      .ok ({ d with span := nonempty name }, .field (i + 1))
    else .ok (d, .span start)
  | .field start =>
    if c == '\x7d' then do
      let body ← cut text start i
      if body.isEmpty then .error .malformed
      else
        match FieldMatch.read body with
        | .ok m => .ok ({ d with field := some m }, .fields)
        | .error f => .error (.badPattern f)
    else .ok (d, .field start)
  | .fields => if c == ']' then .ok (d, .target) else .error .malformed
  | .target => if c == '=' then .ok (d, .level (i + 1)) else .error .malformed
  | .level start => .ok (d, .level start)

/-- Reads the characters of the trimmed text from the distance `i` on. -/
def steps (text : List Char) (i : Nat) (d : Directive) (state : DirectiveState) :
    List Char → Except DirectiveFault (Directive × DirectiveState)
  | [] => .ok (d, state)
  | c :: rest =>
    match step text i c d state with
    | .error f => .error f
    | .ok (d, state) => steps text (i + c.utf8Size) d state rest

/-- The directive at the end of the text. -/
def finish (text : List Char) (d : Directive) : DirectiveState → Except DirectiveFault Directive
  | .levelOrTarget =>
    match Threshold.read? text with
    | some level => .ok { d with level, target := none }
    | none => .ok { d with level := .trace, target := some (String.ofList text) }
  | .level start =>
    match cutFrom text start with
    | .error f => .error f
    | .ok [] => .ok { d with level := .trace }
    | .ok word =>
      match Threshold.read? word with
      | some level => .ok { d with level }
      | none => .error .badLevel
  | .target => .ok d
  | _ => .error .malformed

/-- Reads a directive. -/
def read (text : List Char) : Except DirectiveFault Directive :=
  match steps text 0 {} .start (Text.trim text) with
  | .error f => .error f
  | .ok (d, state) => finish text d state

end Directive

end Menagerie.Filter
