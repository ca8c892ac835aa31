import Menagerie.Filter.FieldMatch

/-! Directives of a log filter. A directive sets the threshold for a target, for spans of a name or for
spans with a value; one that speaks of spans or values is dynamic, any other one static. Directives are
ordered by how specific they are. -/

namespace Menagerie.Filter

structure Directive where
  target : Option String := none
  span : Option String := none
  field : Option FieldMatch := none
  level : Threshold := .trace
  deriving DecidableEq, Repr

/-- A directive for all events of a target, or for those that have a value of some name. -/
structure StaticDirective where
  target : Option String := none
  field : Option String := none
  level : Threshold := .trace
  deriving DecidableEq, Repr

/-- Compares two optional things; one that is missing comes first. -/
def orderOption {α : Type} (order : α → α → Ordering) : Option α → Option α → Ordering
  | none, none => .eq
  | none, some _ => .lt
  | some _, none => .gt
  | some a, some b => order a b

/-- Targets are ordered by their length in octets; the text decides only when all else is equal. -/
def targetLength (target : Option String) : Option Nat := target.map String.utf8ByteSize

namespace Directive

def isDynamic (d : Directive) : Bool := d.span.isSome || d.field.isSome

def hasValue (d : Directive) : Bool := d.field.any (·.value.isSome)

/-- What a directive says about events in any span: nothing if it names a span or wants a value. -/
def static? (d : Directive) : Option StaticDirective :=
  if d.span.isSome || d.hasValue then none
  else some ⟨d.target, d.field.map (·.name), d.level⟩

/-- Compares how specific two directives are. -/
def order (d e : Directive) : Ordering :=
  (orderOption compare (targetLength d.target) (targetLength e.target)).then
    ((compare d.span.isSome.toNat e.span.isSome.toNat).then
      ((compare d.field.isSome.toNat e.field.isSome.toNat).then
        ((orderOption compare d.target e.target).then
          ((orderOption compare d.span e.span).then
            (orderOption FieldMatch.order d.field e.field)))))

/-- The text of a directive of which the parts in brackets are given. -/
def printWith (target : Option String) (brackets : String) (level : Threshold) : String :=
  let front := target.getD "" ++ brackets
  if target.isNone && brackets == "" then level.name else front ++ "=" ++ level.name

def print (d : Directive) : String :=
  let field := d.field.elim "" fun m => "\x7b" ++ m.print ++ "\x7d"
  let brackets := if d.isDynamic then "[" ++ d.span.getD "" ++ field ++ "]" else ""
  printWith d.target brackets d.level

/-- Whether a directive is about a span: its target begins as wanted, its name is the wanted one, and it
has a value of the wanted name. -/
def isAbout (d : Directive) (s : Journal.Span) : Bool :=
  d.target.all (·.toList.isPrefixOf s.target.toList) && d.span.all (· == s.name)
    && d.field.all fun m => s.values.any (·.1 == m.name)

/-- The threshold that a directive sets in a span that it is about. -/
def thresholdIn (d : Directive) (s : Journal.Span) : Threshold :=
  if d.field.all (·.accepts s.values) then d.level else .off

end Directive

namespace StaticDirective

/-- Compares how specific two directives are. -/
def order (d e : StaticDirective) : Ordering :=
  (orderOption compare (targetLength d.target) (targetLength e.target)).then
    ((compare d.field.isSome.toNat e.field.isSome.toNat).then
      ((orderOption compare d.target e.target).then (orderOption compare d.field e.field)))

def print (d : StaticDirective) : String :=
  Directive.printWith d.target (d.field.elim "" fun n => "[\x7b" ++ n ++ "\x7d]") d.level

/-- Whether a directive is about events of a target with values of these names. -/
def isAboutEvent (d : StaticDirective) (target : String) (names : List String) : Bool :=
  d.target.all (·.toList.isPrefixOf target.toList) && d.field.all names.contains

/-- Whether a directive is about spans of a target. -/
def isAboutSpan (d : StaticDirective) (target : String) : Bool :=
  d.target.all (·.toList.isPrefixOf target.toList)

end StaticDirective

end Menagerie.Filter
