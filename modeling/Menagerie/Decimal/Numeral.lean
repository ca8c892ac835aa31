/-! Which texts are decimal numerals, and which numbers they denote. Only the ten ASCII digits count. Leading
zeros change nothing, and one sign may stand in front. A fraction may have a point among its digits and an
exponent behind them; the words for what is no finite number count as fractions too. -/

namespace Menagerie.Decimal

/-- One digit or more that denote a number. -/
structure IsNatural (cs : List Char) (n : Nat) : Prop where
  ne_nil : cs ≠ []
  digits : ∀ c ∈ cs, c.isDigit = true
  value : Nat.ofDigitChars 10 cs 0 = n

/-- A numeral that may have a plus sign. -/
inductive IsUnsigned : List Char → Nat → Prop
  | bare {cs : List Char} {n : Nat} (h : IsNatural cs n) : IsUnsigned cs n
  | plus {cs : List Char} {n : Nat} (h : IsNatural cs n) : IsUnsigned ('+' :: cs) n

/-- A numeral that may have either sign. -/
inductive IsInteger : List Char → Int → Prop
  | unsigned {cs : List Char} {n : Nat} (h : IsUnsigned cs n) : IsInteger cs n
  | minus {cs : List Char} {n : Nat} (h : IsNatural cs n) : IsInteger ('-' :: cs) (-n)

/-- Digits with at most one point among them, and one digit at least. -/
inductive IsMantissa : List Char → Prop
  | whole {digits : List Char} (hne : digits ≠ []) (h : ∀ c ∈ digits, c.isDigit = true) : IsMantissa digits
  | pointed {whole part : List Char} (hne : whole ++ part ≠ []) (h : ∀ c ∈ whole ++ part, c.isDigit = true) :
    IsMantissa (whole ++ '.' :: part)

inductive IsExponent : List Char → Prop
  | nothing : IsExponent []
  | power {e : Char} {cs : List Char} {n : Int} (he : e = 'e' ∨ e = 'E') (h : IsInteger cs n) : IsExponent (e :: cs)

/-- A fraction without its sign. -/
inductive IsMagnitude : List Char → Prop
  | numeral {mantissa exponent : List Char} (hmantissa : IsMantissa mantissa) (hexponent : IsExponent exponent) :
    IsMagnitude (mantissa ++ exponent)
  | word {cs : List Char} (h : String.ofList (cs.map Char.toLower) ∈ ["inf", "infinity", "nan"]) : IsMagnitude cs

inductive IsFraction : List Char → Prop
  | bare {cs : List Char} (h : IsMagnitude cs) : IsFraction cs
  | signed {sign : Char} {cs : List Char} (hsign : sign = '+' ∨ sign = '-') (h : IsMagnitude cs) :
    IsFraction (sign :: cs)

/-- A sign, if one is written, any zeros and the digits of the magnitude. -/
inductive Spells (n : Int64) : String → Prop
  | bare (zeros : Nat) (h : 0 ≤ n.toInt) :
    Spells n (String.ofList (List.replicate zeros '0') ++ toString n.toInt.natAbs)
  | plus (zeros : Nat) (h : 0 ≤ n.toInt) :
    Spells n ("+" ++ String.ofList (List.replicate zeros '0') ++ toString n.toInt.natAbs)
  | minus (zeros : Nat) (h : n.toInt ≤ 0) :
    Spells n ("-" ++ String.ofList (List.replicate zeros '0') ++ toString n.toInt.natAbs)

end Menagerie.Decimal
