/-! Patterns for texts. A repetition prefers to go on unless it is lazy, and of two alternatives the
first is preferred; preferences decide which matches are tried at all. -/

namespace Menagerie

/-- A condition on the place between two characters. Words are made of ASCII letters, digits and low
lines. -/
inductive Look where
  | start
  | finish
  /-- At the start of a line; with the flag, lines may end in a carriage return. -/
  | lineStart (carriageReturn : Bool)
  | lineFinish (carriageReturn : Bool)
  /-- Between a word and something else, or, if negated, anywhere but there. -/
  | boundary (negated : Bool)
  | wordStart
  | wordFinish
  deriving DecidableEq, Repr

inductive Pattern where
  | empty
  | char (allowed : Char → Bool)
  | look (l : Look)
  | concat (p q : Pattern)
  | either (p q : Pattern)
  | optional (greedy : Bool) (p : Pattern)
  | star (greedy : Bool) (p : Pattern)
  | plus (greedy : Bool) (p : Pattern)

/-- Whether a pattern can match the empty text somewhere. -/
def Pattern.canBeEmpty : Pattern → Bool
  | empty => true
  | char _ => false
  | look _ => true
  | concat p q => p.canBeEmpty && q.canBeEmpty
  | either p q => p.canBeEmpty || q.canBeEmpty
  | optional _ _ => true
  | star _ _ => true
  | plus _ p => p.canBeEmpty

end Menagerie
