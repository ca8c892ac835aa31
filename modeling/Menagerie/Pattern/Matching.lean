import Menagerie.Pattern

/-! Matching. A pattern becomes a list of instructions, and a text is read by threads in the order of
their preference. A match may begin at any place, but every later place is tried behind all threads
from earlier ones. Whoever accepts stops the threads behind it and the search for further places, so
the match that is preferred ends with the text if some thread that has not been stopped accepts there. -/

namespace Menagerie

/-- Whether a condition holds between two characters. -/
def Look.holds (before after : Option Char) : Look → Bool
  | .start => before.isNone
  | .finish => after.isNone
  | .lineStart false => before.isNone || before == some '\n'
  | .lineFinish false => after.isNone || after == some '\n'
  | .lineStart true =>
    before.isNone || before == some '\n' || (before == some '\r' && after != some '\n')
  | .lineFinish true =>
    after.isNone || after == some '\r' || (after == some '\n' && before != some '\r')
  | .boundary negated => (isWord before != isWord after) != negated
  | .wordStart => !isWord before && isWord after
  | .wordFinish => isWord before && !isWord after
where
  isWord (c : Option Char) : Bool := c.any fun c => c.isAlphanum || c == '_'

namespace Pattern

inductive Instruction where
  | char (allowed : Char → Bool) (next : Nat)
  | look (l : Look) (next : Nat)
  | split (first second : Nat)
  | accept

namespace Instruction

/-- Goes on before it leaves, or the other way round if it is not greedy. -/
def choice (greedy : Bool) (goOn leave : Nat) : Instruction :=
  if greedy then split goOn leave else split leave goOn

end Instruction

/-- Instructions under construction. -/
abbrev Code := Array Instruction

/-- Adds the instructions of a pattern that goes on at `next`; answers where it starts. -/
def compile (p : Pattern) (next : Nat) (code : Code) : Nat × Code :=
  match p with
  | empty => (next, code)
  | char allowed => (code.size, code.push (.char allowed next))
  | look l => (code.size, code.push (.look l next))
  | concat p q =>
    let (start, code) := q.compile next code
    p.compile start code
  | either p q =>
    let (first, code) := p.compile next code
    let (second, code) := q.compile next code
    (code.size, code.push (.split first second))
  | optional greedy p =>
    let (start, code) := p.compile next code
    (code.size, code.push (.choice greedy start next))
  | plus greedy p =>
    let again := code.size
    let (start, code) := p.compile again (code.push .accept)
    (start, code.setIfInBounds again (.choice greedy start next))
  | star greedy p =>
    let again := code.size
    let (start, code) := p.compile again (code.push .accept)
    let code := code.setIfInBounds again (.choice greedy start next)
    -- A body that can be empty is entered as an optional one, lest it be left before it is tried.
    if p.canBeEmpty then (code.size, code.push (.choice greedy start next)) else (again, code)

/-- Follows instructions that take no character from `pc` on. The threads found so far come in
reverse; every instruction has one thread at most, so `bound` is the number of instructions. -/
def follow (code : Code) (holds : Look → Bool) : Nat → Nat → List Nat → List Nat
  | 0, _, threads => threads
  | bound + 1, pc, threads =>
    if threads.contains pc then threads
    else
      let threads := pc :: threads
      match code[pc]? with
      | some (.split first second) =>
        follow code holds bound second (follow code holds bound first threads)
      | some (.look l next) => if holds l then follow code holds bound next threads else threads
      | _ => threads

/-- The threads, in reverse, after a character that those before it, in order, have taken. -/
def advance (code : Code) (holds : Look → Bool) (c : Char) : List Nat → List Nat → List Nat
  | [], after => after
  | pc :: threads, after =>
    match code[pc]? with
    | some .accept => after
    | some (.char allowed next) =>
      if allowed c then advance code holds c threads (follow code holds (code.size + 1) next after)
      else advance code holds c threads after
    | _ => advance code holds c threads after

def acceptsAt (code : Code) (pc : Nat) : Bool :=
  match code[pc]? with
  | some .accept => true
  | _ => false

/-- The threads, in reverse, with those that begin at a place behind them. -/
def begin (code : Code) (start : Nat) (holds : Look → Bool) (threads : List Nat) : List Nat :=
  follow code holds (code.size + 1) start threads

/-- Whether a match that begins between the octets of a character ends there at once. Nothing else
can begin there, since every instruction takes whole characters. -/
def endsWithin (code : Code) (start : Nat) (c : Char) : Bool :=
  128 ≤ c.toNat && (begin code start (Look.holds (some c) (some c)) []).any (acceptsAt code)

/-- Reads a text with threads in order; while it `searches`, new ones begin behind them. -/
def runThreads (code : Code) (start : Nat) : Bool → List Nat → List Char → Bool
  | _, threads, [] => threads.any (acceptsAt code)
  | searches, threads, c :: rest =>
    let holds := Look.holds (some c) rest.head?
    let searches := searches && !threads.any (acceptsAt code) && !endsWithin code start c
    let after := advance code holds c threads []
    let after := if searches then begin code start holds after else after
    runThreads code start searches after.reverse rest

/-- Whether the preferred match of a pattern in a text ends where the text does. -/
def accepts (p : Pattern) (s : String) : Bool :=
  let (start, code) := p.compile 0 #[.accept]
  let cs := s.toList
  runThreads code start true (begin code start (Look.holds none cs.head?) []).reverse cs

end Pattern

end Menagerie
