import Menagerie.Decimal.Binary64

/-! How similar two texts are, from zero to one. Characters match if they are equal and no further apart
than about half the longer text; the measure is the mean of the shares of both texts that match and of
the share of matches that keep their order. It is computed in binary fractions, so that equal means are
told apart by rounding as they are there. -/

namespace Menagerie.Text

open Decimal (Magnitude)

/-- For every character of the first text the place of its match in the second; `taken` are the places
that are matched already, and `i` is the place of the first character. -/
def matchPlaces (window : Nat) (t : List Char) (i : Nat) (taken : List Nat) : List Char → List Nat
  | [] => taken.reverse
  | c :: rest =>
    let near := t.zipIdx.find? fun p =>
      i ≤ p.2 + window && p.2 ≤ i + window && p.1 == c && !taken.contains p.2
    match near with
    | some p => matchPlaces window t (i + 1) (p.2 :: taken) rest
    | none => matchPlaces window t (i + 1) taken rest

/-- How many of the matches in the first text's order are another character than the match at the same
place of the second text's order. -/
def displaced (t : List Char) (places : List Nat) : Nat :=
  let chars (ps : List Nat) : List (Option Char) := ps.map fun p => t[p]?
  ((chars places).zip (chars (places.mergeSort (· ≤ ·)))).countP fun p => p.1 != p.2

/-- The similarity of two texts. -/
def similarity (s t : String) : Magnitude :=
  let cs := s.toList
  let ds := t.toList
  let places := matchPlaces (max cs.length ds.length / 2 - 1) ds 0 [] cs
  let matched := places.length
  if cs.isEmpty && ds.isEmpty then .ofQuotient 1 1
  else if matched = 0 then .finite 0
  else
    let shares := (Magnitude.ofQuotient matched cs.length).add (.ofQuotient matched ds.length)
    (shares.add (.ofQuotient (matched - displaced ds places / 2) matched)).divide 3

/-- Texts are taken for misspellings of each other if they are more similar than this. -/
def similarityThreshold : Magnitude := .ofQuotient 7 10

/-- The candidate most similar to a text, if one is similar enough; of equal ones the last. -/
def mostSimilar? (s : String) (candidates : List String) : Option String :=
  let scored := candidates.map fun c => (c, (similarity s c).place)
  let good := scored.filter fun p => similarityThreshold.place < p.2
  (good.foldl (fun best p =>
    match best with
    | none => some p
    | some b => if b.2 ≤ p.2 then some p else some b) none).map (·.1)

end Menagerie.Text
