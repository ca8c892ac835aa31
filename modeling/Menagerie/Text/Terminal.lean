import Menagerie.Text.Octets

/-! Texts for a terminal, and texts without what controls one. Control sequences are left out, and so
are control characters that are no blanks. An escape character breaks off whatever sequence it stands
in, so a painted part of a text always shows, no matter what is in front of it. -/

namespace Menagerie.Text

/-- How a part of a text stands out. -/
inductive Style where
  | failure | heading | literal | valid | invalid
  deriving DecidableEq, Repr

def Style.code : Style → String
  | failure => "\x1b[1m\x1b[31m"
  | heading => "\x1b[1m\x1b[4m"
  | literal => "\x1b[1m"
  | valid => "\x1b[32m"
  | invalid => "\x1b[33m"

/-- A text that stands out. -/
def Style.paint (s : Style) (text : String) : String := s.code ++ text ++ "\x1b[0m"

/-- Where a reader stands in a control sequence. -/
inductive SequenceState where
  | ground
  /-- Behind an escape character. -/
  | escape
  /-- Behind an escape character and others that a last one follows. -/
  | intermediate
  /-- In a sequence that a letter ends. -/
  | control
  /-- In a text for the terminal, which a bell ends. -/
  | command
  /-- Behind the start of a text for a device, which a letter introduces. -/
  | device
  | deviceParameters
  | deviceIntermediate
  /-- In a text that the octet 9C ends, even within a character. -/
  | string
  deriving DecidableEq, Repr

def isControlBlank (c : Char) : Bool := c == '\t' || c == '\n' || c == '\x0c' || c == '\r'

def isControl (c : Char) : Bool := c.toNat < 0x20 || c.toNat == 0x7f

/-- The octet that ends a string. -/
def stringEnd : UInt8 := 0x9c

namespace SequenceState

/-- The state behind a character that does not break off a sequence but may end it. -/
def follow : SequenceState → Char → SequenceState
  | ground, _ => ground
  | escape, c =>
    if ' ' ≤ c && c ≤ '/' then intermediate
    else if c == '[' then control
    else if c == ']' then command
    else if c == 'P' then device
    else if c == 'X' || c == '^' || c == '_' then string
    else if '0' ≤ c && c ≤ '~' then ground
    else escape
  | intermediate, c => if '0' ≤ c && c ≤ '~' then ground else intermediate
  | control, c => if '@' ≤ c && c ≤ '~' then ground else control
  | command, c => if c == '\x07' then ground else command
  | device, c =>
    if ' ' ≤ c && c ≤ '/' then deviceIntermediate
    else if '0' ≤ c && c ≤ '?' then deviceParameters
    else if '@' ≤ c && c ≤ '~' then string
    else device
  | deviceParameters, c =>
    if ' ' ≤ c && c ≤ '/' then deviceIntermediate
    else if '<' ≤ c && c ≤ '~' then string
    else deviceParameters
  | deviceIntermediate, c => if '0' ≤ c && c ≤ '~' then string else deviceIntermediate
  | string, c => if (octets c.toString).contains stringEnd then ground else string

/-- Whether a character is shown; blanks are, but for those in a text that is part of a sequence. -/
def shows : SequenceState → Char → Bool
  | ground, c => !isControl c || isControlBlank c
  | escape, c | intermediate, c | control, c => isControlBlank c
  | _, _ => false

end SequenceState

/-- What is shown of some characters. A blank that is shown suspends the sequence that it stands in, and
all is shown up to the next control character. Sequences that `resume` then go on, unless a character
beyond ASCII was shown; others were broken off by the blank. -/
def shownFrom (resume : Bool) : Bool → SequenceState → List Char → List Char
  | _, _, [] => []
  | suspended, s, c :: rest =>
    if c == '\x1b' then shownFrom resume false .escape rest
    else if c == '\x18' || c == '\x1a' then shownFrom resume false .ground rest
    else if (if suspended then SequenceState.ground else s).shows c then
      let resumes := resume && c.toNat < 128
      c :: shownFrom resume resumes (if resumes then s else .ground) rest
    else shownFrom resume false (s.follow c) rest

/-- A text without what controls a terminal; its sequences `resume` behind blanks or not. -/
def withoutControls (resume : Bool) (s : String) : String :=
  String.ofList (shownFrom resume false .ground s.toList)

end Menagerie.Text
