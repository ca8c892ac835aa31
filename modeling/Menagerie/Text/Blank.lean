/-! Blank characters, and texts without blanks at their ends. -/

namespace Menagerie.Text

/-- White space: the ASCII and Latin-1 spaces and line ends, and the spaces of the general
punctuation, Ogham and CJK blocks. -/
def isBlank (c : Char) : Bool :=
  let n := c.toNat
  (9 ≤ n && n ≤ 13) || n == 0x20 || n == 0x85 || n == 0xa0 || n == 0x1680
    || (0x2000 ≤ n && n ≤ 0x200a) || n == 0x2028 || n == 0x2029 || n == 0x202f || n == 0x205f
    || n == 0x3000

def trimLeft (cs : List Char) : List Char := cs.dropWhile isBlank

def trimRight (cs : List Char) : List Char := (trimLeft cs.reverse).reverse

/-- A text without the blanks at its ends. -/
def trim (cs : List Char) : List Char := trimRight (trimLeft cs)

/-- Neither the first nor the last character is blank. -/
structure IsTrimmed (cs : List Char) : Prop where
  first : ∀ c ∈ cs.head?, isBlank c = false
  last : ∀ c ∈ cs.getLast?, isBlank c = false

theorem not_any_isBlank_iff {o : Option Char} : o.any isBlank = false ↔ ∀ c ∈ o, isBlank c = false := by
  cases o <;> simp

instance (cs : List Char) : Decidable (IsTrimmed cs) :=
  decidable_of_iff (cs.head?.any isBlank = false ∧ cs.getLast?.any isBlank = false) <| by
    rw [not_any_isBlank_iff, not_any_isBlank_iff]
    exact ⟨fun h => ⟨h.1, h.2⟩, fun h => ⟨h.first, h.last⟩⟩

/-- Nothing but blanks, or nothing at all. -/
def allBlank (s : String) : Bool := s.toList.all isBlank

end Menagerie.Text
