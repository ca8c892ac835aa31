/-! Sets of code points: the named classes of patterns and the operations on classes. What differs
only in case is known for ASCII letters alone. -/

namespace Menagerie

abbrev CodeSet := Nat → Bool

namespace CodeSet

def none : CodeSet := fun _ => false

def single (m : Nat) : CodeSet := fun n => n == m

def range (first last : Nat) : CodeSet := fun n => first ≤ n && n ≤ last

def ofChars (s : String) : CodeSet := fun n => s.toList.any (·.toNat == n)

def union (s t : CodeSet) : CodeSet := fun n => s n || t n

def intersect (s t : CodeSet) : CodeSet := fun n => s n && t n

def difference (s t : CodeSet) : CodeSet := fun n => s n && !t n

def symmetricDifference (s t : CodeSet) : CodeSet := fun n => s n != t n

def complement (s : CodeSet) : CodeSet := fun n => !s n

/-- The set with all ASCII letters that differ from its members in case. -/
def foldCase (s : CodeSet) : CodeSet := fun n =>
  s n || (range 65 90 n && s (n + 32)) || (range 97 122 n && s (n - 32))

def isLetter : CodeSet := union (range 65 90) (range 97 122)

def isDigit : CodeSet := range 48 57

def isSpace : CodeSet := union (range 9 13) (single 32)

def isWord : CodeSet := union (union isLetter isDigit) (single 95)

/-- The ASCII class of a name. -/
def ascii? : String → Option CodeSet
  | "alnum" => some (union isLetter isDigit)
  | "alpha" => some isLetter
  | "ascii" => some (range 0 127)
  | "blank" => some (ofChars "\t ")
  | "cntrl" => some (union (range 0 31) (single 127))
  | "digit" => some isDigit
  | "graph" => some (range 33 126)
  | "lower" => some (range 97 122)
  | "print" => some (range 32 126)
  | "punct" => some (difference (range 33 126) (union isLetter isDigit))
  | "space" => some isSpace
  | "upper" => some (range 65 90)
  | "word" => some isWord
  | "xdigit" => some (union isDigit (union (range 65 70) (range 97 102)))
  | _ => Option.none

/-- The ASCII class behind a letter: digits, blanks or word characters. -/
def ofEscape? : Char → Option CodeSet
  | 'd' => some isDigit
  | 's' => some isSpace
  | 'w' => some isWord
  | _ => Option.none

end CodeSet

end Menagerie
