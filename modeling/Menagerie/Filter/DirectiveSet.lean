import Menagerie.Filter.Directive

/-! Sets of directives. The most specific one comes first, and of two that are equally specific only the
one added last is kept. A set remembers the most verbose level ever added to it. -/

namespace Menagerie.Filter

class Ranked (α : Type) where
  order : α → α → Ordering
  level : α → Threshold

instance : Ranked Directive := ⟨Directive.order, Directive.level⟩

instance : Ranked StaticDirective := ⟨StaticDirective.order, StaticDirective.level⟩

structure DirectiveSet (α : Type) where
  entries : List α := []
  maxLevel : Threshold := .off
  deriving DecidableEq, Repr

namespace DirectiveSet

variable {α : Type} [Ranked α]

/-- Puts a directive in front of all less specific ones, in place of one that is equally specific. -/
def insertEntry (d : α) : List α → List α
  | [] => [d]
  | e :: rest =>
    match Ranked.order d e with
    | .gt => d :: e :: rest
    | .eq => d :: rest
    | .lt => e :: insertEntry d rest

def add (s : DirectiveSet α) (d : α) : DirectiveSet α where
  entries := insertEntry d s.entries
  maxLevel := s.maxLevel.max (Ranked.level d)

def ofList (ds : List α) : DirectiveSet α := ds.foldl add {}

end DirectiveSet

end Menagerie.Filter
