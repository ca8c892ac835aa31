/-! Decimal numerals. Digits are the ten ASCII digits; a numeral is one digit or more, and a signed one
has at most one sign in front. -/

namespace Menagerie.Decimal

def digit? (c : Char) : Option Nat :=
  if '0' ≤ c ∧ c ≤ '9' then some (c.toNat - '0'.toNat) else none

/-- Continues a numeral of which the digits so far denote `n`. -/
def digitsFrom (n : Nat) : List Char → Option Nat
  | [] => some n
  | c :: rest =>
    match digit? c with
    | some d => digitsFrom (10 * n + d) rest
    | none => none

/-- The number a numeral denotes. -/
def natural? : List Char → Option Nat
  | [] => none
  | c :: rest => digitsFrom 0 (c :: rest)

/-- The number a numeral denotes that may have a plus sign. -/
def unsigned? : List Char → Option Nat
  | '+' :: rest => natural? rest
  | cs => natural? cs

/-- The number a signed numeral denotes. -/
def integer? : List Char → Option Int
  | '-' :: rest => (natural? rest).map fun (n : Nat) => -(n : Int)
  | cs => (unsigned? cs).map fun (n : Nat) => (n : Int)

/-- The 64-bit number a signed numeral denotes, if it denotes one. -/
def int64? (cs : List Char) : Option Int64 :=
  match integer? cs with
  | some n => if Int64.minValue.toInt ≤ n ∧ n ≤ Int64.maxValue.toInt then some (Int64.ofInt n) else none
  | none => none

end Menagerie.Decimal
