import Menagerie.Decimal.Numeral
import Menagerie.Filter.DirectiveReader

/-! How directives are written. A target, a span with its values between brackets and a level behind an equals
sign follow each other, and each of them can be missing. A text that names a level is that level and no
target, and without a level everything is let through. -/

namespace Menagerie

/-- A level by itself: its word in any case of the ASCII letters, or its number. -/
inductive Threshold.IsNamed : List Char → Threshold → Prop
  | word {cs : List Char} {t : Threshold} (h : cs.map Char.toLower = t.name.toList) : IsNamed cs t
  | number {cs : List Char} {t : Threshold} (h : Decimal.IsUnsigned cs t.rank) : IsNamed cs t

namespace Filter

/-- A text asks for a value: for a truth value, for a number or, if it is none of these, for what a pattern
matches. Numbers without point or exponent are kept whole as long as they fit into 64 bits. -/
inductive WantedValue.IsWritten : List Char → WantedValue → Prop
  | flag (b : Bool) : IsWritten (toString b).toList (.flag b)
  | unsigned {cs : List Char} {n : UInt64} (h : Decimal.IsUnsigned cs n.toNat) : IsWritten cs (.unsigned n)
  | signed {cs : List Char} {n : Int64} (h : Decimal.IsInteger ('-' :: cs) n.toInt) : IsWritten ('-' :: cs) (.signed n)
  | fraction {cs : List Char} {x : Decimal.Binary64} (hunsigned : ∀ n : UInt64, ¬Decimal.IsUnsigned cs n.toNat)
    (hsigned : ∀ n : Int64, ¬Decimal.IsInteger cs n.toInt) (h : Decimal.Fraction.read? cs = some (.number x)) :
    IsWritten cs (.fraction x)
  | notANumber {cs : List Char} (hunsigned : ∀ n : UInt64, ¬Decimal.IsUnsigned cs n.toNat)
    (hsigned : ∀ n : Int64, ¬Decimal.IsInteger cs n.toInt) (h : Decimal.Fraction.read? cs = some .notANumber) :
    IsWritten cs .notANumber
  | pattern {cs : List Char} {p : Pattern} (hflag : ∀ b : Bool, cs ≠ (toString b).toList)
    (hnumber : ¬Decimal.IsFraction cs) (h : Pattern.read (String.ofList cs) = .ok p) :
    IsWritten cs (.pattern (String.ofList cs))

/-- A name, and maybe a value behind an equals sign. What follows a second one counts for nothing. -/
inductive FieldMatch.IsWritten : List Char → FieldMatch → Prop
  | name {name : List Char} (hname : '=' ∉ name) : IsWritten name ⟨String.ofList name, none⟩
  | value {name text rest : List Char} {v : WantedValue} (hname : '=' ∉ name) (htext : '=' ∉ text)
    (hrest : ∀ c ∈ rest.head?, c = '=') (h : v.IsWritten text) :
    IsWritten (name ++ '=' :: (text ++ rest)) ⟨String.ofList name, some v⟩

namespace Directive

/-- A text that can stand as a target. -/
structure IsTarget (name : List Char) : Prop where
  starts : ∃ c ∈ name.head?, c = '-' ∨ c = ':' ∨ c = '_' ∨ Text.isAlphanumeric c = true
  unmarked : ∀ c ∈ name, c ≠ '=' ∧ c ≠ '['

/-- What stands behind an opening bracket: the name of a span, maybe values between braces, and the closing
bracket. In front of a brace no name means any span; by itself it is the name that is empty. -/
inductive IsBracketed : List Char → Option String → Option FieldMatch → Prop
  | span {name : List Char} (hname : ∀ c ∈ name, c ≠ ']' ∧ c ≠ '\x7b') :
    IsBracketed (name ++ [']']) (some (String.ofList name)) none
  | field {name body : List Char} {m : FieldMatch} (hname : ∀ c ∈ name, c ≠ ']' ∧ c ≠ '\x7b') (hne : body ≠ [])
    (hbody : '\x7d' ∉ body) (h : m.IsWritten body) :
    IsBracketed (name ++ '\x7b' :: (body ++ ['\x7d', ']'])) (if name = [] then none else some (String.ofList name))
      (some m)

/-- A level behind an equals sign, where nothing lets everything through. -/
inductive IsLevel : List Char → Threshold → Prop
  | nothing : IsLevel [] .trace
  | named {word : List Char} {t : Threshold} (h : t.IsNamed word) : IsLevel word t

/-- What may stand behind a closing bracket. -/
inductive IsEnding : List Char → Threshold → Prop
  | nothing : IsEnding [] .trace
  | level {word : List Char} {t : Threshold} (h : IsLevel word t) : IsEnding ('=' :: word) t

/-- How a directive is written. -/
inductive IsWritten : List Char → Directive → Prop
  | level {name : List Char} {t : Threshold} (hname : IsTarget name) (h : t.IsNamed name) :
    IsWritten name { level := t }
  | target {name : List Char} (hname : IsTarget name) (h : ∀ t : Threshold, ¬t.IsNamed name) :
    IsWritten name { target := some (String.ofList name) }
  | targetLevel {name word : List Char} {t : Threshold} (hname : IsTarget name) (h : IsLevel word t) :
    IsWritten (name ++ '=' :: word) { target := some (String.ofList name), level := t }
  | spans {inner ending : List Char} {span : Option String} {field : Option FieldMatch} {t : Threshold}
    (hinner : IsBracketed inner span field) (hending : IsEnding ending t) :
    IsWritten ('[' :: (inner ++ ending)) { span, field, level := t }
  | targetSpans {name inner ending : List Char} {span : Option String} {field : Option FieldMatch} {t : Threshold}
    (hname : IsTarget name) (hinner : IsBracketed inner span field) (hending : IsEnding ending t) :
    IsWritten (name ++ '[' :: (inner ++ ending)) { target := some (String.ofList name), span, field, level := t }

end Directive

end Filter

end Menagerie
