import Menagerie.Decimal.Integer

/-! How grave an event is, and thresholds that admit events of some levels. -/

namespace Menagerie

/-- The level of an event, the gravest first. -/
inductive Level where
  | error | warn | info | debug | trace
  deriving DecidableEq, Repr

namespace Level

/-- The graver, the lower. -/
def rank : Level → Nat
  | error => 1
  | warn => 2
  | info => 3
  | debug => 4
  | trace => 5

def label : Level → String
  | error => "ERROR"
  | warn => "WARN"
  | info => "INFO"
  | debug => "DEBUG"
  | trace => "TRACE"

end Level

/-- Admits the levels up to one of them, or none. -/
inductive Threshold where
  | off | error | warn | info | debug | trace
  deriving DecidableEq, Repr

namespace Threshold

def rank : Threshold → Nat
  | off => 0
  | error => 1
  | warn => 2
  | info => 3
  | debug => 4
  | trace => 5

def all : List Threshold := [off, error, warn, info, debug, trace]

def name : Threshold → String
  | off => "off"
  | error => "error"
  | warn => "warn"
  | info => "info"
  | debug => "debug"
  | trace => "trace"

def admits (t : Threshold) (l : Level) : Bool := l.rank ≤ t.rank

/-- The more verbose of two. -/
def max (s t : Threshold) : Threshold := if s.rank ≤ t.rank then t else s

def lower (c : Char) : Char := if 'A' ≤ c ∧ c ≤ 'Z' then Char.ofNat (c.toNat + 32) else c

/-- Reads a threshold: one of the words in any case, or a number from 0 to 5. -/
def read? (cs : List Char) : Option Threshold :=
  match Decimal.unsigned? cs with
  | some n => all.find? (·.rank = n)
  | none => all.find? (·.name.toList = cs.map lower)

theorem read?_name (t : Threshold) : read? t.name.toList = some t := by
  cases t <;> decide

end Threshold

end Menagerie
