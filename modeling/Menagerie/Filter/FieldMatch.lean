import Menagerie.Decimal.Binary64
import Menagerie.Journal
import Menagerie.Pattern.Matching
import Menagerie.Pattern.Reader

/-! Conditions on the values of a span: that it has a value of some name, and maybe what the value is. A
value is wanted as a truth value, a number or a pattern, whichever its text can be read as first. -/

namespace Menagerie.Filter

inductive WantedValue where
  | flag (b : Bool)
  | fraction (x : Decimal.Binary64)
  | notANumber
  | unsigned (n : UInt64)
  | signed (n : Int64)
  | pattern (text : String)
  deriving DecidableEq, Repr

namespace WantedValue

def unsigned? (cs : List Char) : Option UInt64 :=
  match Decimal.unsigned? cs with
  | some n => if n < UInt64.size then some (UInt64.ofNat n) else none
  | none => none

/-- Reads a number, as a whole one of 64 bits if it is one. -/
def number? (cs : List Char) : Option WantedValue :=
  match unsigned? cs, Decimal.int64? cs, Decimal.Fraction.read? cs with
  | some n, _, _ => some (unsigned n)
  | none, some n, _ => some (signed n)
  | none, none, some (.number x) => some (fraction x)
  | none, none, some .notANumber => some notANumber
  | none, none, none => none

/-- Reads a value that is no pattern. -/
def plain? (cs : List Char) : Option WantedValue :=
  if cs = "true".toList then some (flag true)
  else if cs = "false".toList then some (flag false)
  else number? cs

def read (cs : List Char) : Except Pattern.Fault WantedValue :=
  match plain? cs with
  | some v => .ok v
  | none =>
    let text := String.ofList cs
    match Pattern.read text with
    | .ok _ => .ok (pattern text)
    | .error f => .error f

def print : WantedValue → String
  | flag b => toString b
  | fraction x => x.print
  | notANumber => "NaN"
  | unsigned n => toString n.toNat
  | signed n => toString n.toInt
  | pattern text => text

/-- Values of different kinds follow each other in this order. -/
def kindRank : WantedValue → Nat
  | flag _ => 0
  | fraction _ => 1
  | notANumber => 2
  | unsigned _ => 3
  | signed _ => 4
  | pattern _ => 5

def order : WantedValue → WantedValue → Ordering
  | flag a, flag b => compare a.toNat b.toNat
  | fraction x, fraction y => compare x.place y.place
  | unsigned m, unsigned n => compare m.toNat n.toNat
  | signed m, signed n => compare m.toInt n.toInt
  | pattern s, pattern t => compare s t
  | a, b => compare a.kindRank b.kindRank

/-- Whether a text ends where the preferred match of a pattern does, if the pattern can be read. -/
def textMatches (pattern text : String) : Bool :=
  match Pattern.read pattern with
  | .ok p => p.accepts text
  | .error _ => false

/-- Whether a logged value is the wanted one. -/
def accepts : WantedValue → Journal.Value → Bool
  | flag a, .flag b => a == b
  | unsigned m, .number n => (m.toNat : Int) == n
  | signed m, .number n => m.toInt == n
  | pattern p, .quoted s => textMatches p s
  | pattern p, .bare s => textMatches p s
  | _, _ => false

end WantedValue

structure FieldMatch where
  name : String
  value : Option WantedValue := none
  deriving DecidableEq, Repr

namespace FieldMatch

/-- Reads a name, and behind an equals sign a value; what follows a second one counts for nothing. -/
def read (cs : List Char) : Except Pattern.Fault FieldMatch :=
  let name := cs.takeWhile (· != '=')
  match cs.drop name.length with
  | [] => .ok ⟨String.ofList name, none⟩
  | _ :: rest =>
    match WantedValue.read (rest.takeWhile (· != '=')) with
    | .ok v => .ok ⟨String.ofList name, some v⟩
    | .error f => .error f

def print (m : FieldMatch) : String := m.name ++ m.value.elim "" fun v => "=" ++ v.print

def orderValues : Option WantedValue → Option WantedValue → Ordering
  | none, none => .eq
  | none, some _ => .lt
  | some _, none => .gt
  | some a, some b => a.order b

/-- A match with a value is more specific than one without; then names count, then values. -/
def order (m n : FieldMatch) : Ordering :=
  (compare m.value.isSome.toNat n.value.isSome.toNat).then
    ((compare m.name n.name).then (orderValues m.value n.value))

/-- Whether a span with these values has the value that is wanted. -/
def accepts (m : FieldMatch) (values : Journal.Values) : Bool :=
  match m.value with
  | none => true
  | some v => values.any fun p => p.1 == m.name && v.accepts p.2

end FieldMatch

end Menagerie.Filter
