import Menagerie.Decimal.Integer

/-! Binary fractions of 64 bits. A finite one is a whole number of units of two to the power -1074; below
two to the power 53 every number of units occurs, above it only those with 53 significant bits. A
numeral is read as the nearest fraction, the even one of two, and a fraction is written with the fewest
significant digits that are read as it again. -/

namespace Menagerie.Decimal

inductive Magnitude where
  | finite (units : Nat)
  | infinite
  deriving DecidableEq, Repr

structure Binary64 where
  negative : Bool
  magnitude : Magnitude
  deriving DecidableEq, Repr

/-- The quotient rounded to the nearest number, to the even one of two. -/
def roundEven (num den : Nat) : Nat :=
  let q := num / den
  let twice := 2 * (num % den)
  if twice < den then q
  else if den < twice then q + 1
  else q + q % 2

namespace Magnitude

/-- Units in one. -/
def unit : Nat := Nat.pow 2 1074

/-- The distance from a number of units to the next larger one that occurs. -/
def gap (units : Nat) : Nat := if units < Nat.pow 2 53 then 1 else Nat.pow 2 (Nat.log2 units - 52)

/-- The distance to the next smaller one, which is half as far below a power of two. -/
def gapBelow (units : Nat) : Nat :=
  if Nat.pow 2 53 < units ∧ units = Nat.pow 2 (Nat.log2 units) then gap units / 2 else gap units

/-- The magnitude nearest to a quotient. -/
def ofQuotient (num den : Nat) : Magnitude :=
  let step := gap (num * unit / den)
  let units := step * roundEven (num * unit) (den * step)
  if units < Nat.pow 2 2098 then .finite units else .infinite

/-- The magnitude nearest to `digits` times ten to the power `exponent`; powers far out of range are
not computed. -/
def ofDecimal (digits : Nat) (exponent : Int) : Magnitude :=
  let leading : Int := exponent + ((Nat.toDigits 10 digits).length : Int)
  if digits = 0 ∨ leading < -330 then .finite 0
  else if 310 < leading then .infinite
  else if 0 ≤ exponent then ofQuotient (digits * Nat.pow 10 exponent.toNat) 1
  else ofQuotient digits (Nat.pow 10 (-exponent).toNat)

/-- The magnitude nearest to a sum. -/
def add : Magnitude → Magnitude → Magnitude
  | finite u, finite v => ofQuotient (u + v) unit
  | _, _ => infinite

/-- The magnitude nearest to a quotient by a whole number. -/
def divide (n : Nat) : Magnitude → Magnitude
  | finite u => ofQuotient u (n * unit)
  | infinite => infinite

/-- The units of a magnitude; infinity lies above all finite ones. -/
def place : Magnitude → Nat
  | finite u => u
  | infinite => Nat.pow 2 2098

/-- The positive multiple of ten to the power `exponent` nearest to some units, the larger one of two,
if it is read as those units again: as a factor of that power. -/
def factorAt? (units : Nat) (exponent : Int) : Option Nat :=
  -- Everything is measured in quarters of a unit, divided by a power of ten if it is below one.
  let grid := if 0 ≤ exponent then 4 * unit * Nat.pow 10 exponent.toNat else 4 * unit
  let scale := if 0 ≤ exponent then 1 else Nat.pow 10 (-exponent).toNat
  let value := 4 * units * scale
  let low := value - 2 * gapBelow units * scale
  let high := value + 2 * gap units * scale
  let even := units / gap units % 2 == 0
  let inside (factor : Nat) : Bool :=
    factor != 0 && (if even then low ≤ factor * grid && factor * grid ≤ high
      else low < factor * grid && factor * grid < high)
  let below := value / grid
  let nearest := if 2 * (value % grid) < grid then [below, below + 1] else [below + 1, below]
  nearest.find? inside

/-- The greatest power of ten of which some multiple is read as these units, and the factor. -/
def shortest (units : Nat) : Nat × Int :=
  let exponents : List Int := (List.range 640).map fun (n : Nat) => 310 - (n : Int)
  (exponents.findSome? fun e => (factorAt? units e).map fun f => (f, e)).getD (0, 0)

/-- A number with a power of ten as a numeral without exponent. -/
def positional (factor : Nat) (exponent : Int) : String :=
  let digits := Nat.toDigits 10 factor
  if 0 ≤ exponent then String.ofList (digits ++ List.replicate exponent.toNat '0')
  else
    let places := (-exponent).toNat
    let padded := List.replicate (places + 1 - digits.length) '0' ++ digits
    String.ofList (padded.take (padded.length - places) ++ '.' :: padded.drop (padded.length - places))

def print : Magnitude → String
  | infinite => "inf"
  | finite 0 => "0"
  | finite units =>
    let (factor, exponent) := shortest units
    positional factor exponent

end Magnitude

namespace Binary64

def print (x : Binary64) : String := (if x.negative then "-" else "") ++ x.magnitude.print

/-- The place of a fraction in the order of fractions; both zeros have one place. -/
def place (x : Binary64) : Int :=
  if x.negative then -(x.magnitude.place : Int) else x.magnitude.place

end Binary64

/-- What a numeral with a point or an exponent can denote. -/
inductive Fraction where
  | number (x : Binary64)
  | notANumber
  deriving DecidableEq, Repr

namespace Fraction

def splitDigits (cs : List Char) : List Char × List Char :=
  (cs.takeWhile Char.isDigit, cs.dropWhile Char.isDigit)

/-- The digits behind a point, if there is one. -/
def splitPart : List Char → List Char × List Char
  | '.' :: rest => splitDigits rest
  | rest => ([], rest)

/-- The exponent at the end of a numeral. -/
def exponent? : List Char → Option Int
  | [] => some 0
  | e :: rest => if e == 'e' || e == 'E' then integer? rest else none

/-- The magnitude that an unsigned numeral denotes: digits with at most one point among them and at
least one digit, and maybe an exponent. -/
def magnitude? (cs : List Char) : Option Magnitude :=
  let (whole, rest) := splitDigits cs
  let (part, rest) := splitPart rest
  match natural? (whole ++ part), exponent? rest with
  | some digits, some e => some (.ofDecimal digits (e - part.length))
  | _, _ => none

/-- Reads what follows the sign: a word in any case or a numeral. -/
def unsigned? (negative : Bool) (cs : List Char) : Option Fraction :=
  match String.ofList (cs.map Char.toLower) with
  | "inf" | "infinity" => some (.number ⟨negative, .infinite⟩)
  | "nan" => some .notANumber
  | _ => (magnitude? cs).map fun m => .number ⟨negative, m⟩

def read? : List Char → Option Fraction
  | '-' :: rest => unsigned? true rest
  | '+' :: rest => unsigned? false rest
  | cs => unsigned? false cs

end Fraction

end Menagerie.Decimal
