import Menagerie.Text.Octets
import Menagerie.Wire.Fault

/-! Which octets are fields, said without reading them. A field is a key and a value, and the key tells the
layout of the value. Numbers may be written with more octets than they need. A group is fields up to
the key that ends it. -/

namespace Menagerie.Wire

/-- These octets are a number in groups of seven bits, the lowest first. Behind the first of them at most
`more` can stand; where none can, the octet has one bit. -/
inductive IsVarint : (more : Nat) → Nat → List UInt8 → Prop
  | last {more : Nat} {b : UInt8} (h : b.toNat < if more = 0 then 2 else 128) :
    IsVarint more b.toNat [b]
  | next {more n : Nat} {b : UInt8} {bs : List UInt8} (hhigh : 128 ≤ b.toNat) (h : IsVarint more n bs) :
    IsVarint (more + 1) (b.toNat - 128 + 128 * n) (b :: bs)

/-- These octets are the key of a field: its tag, of 29 bits and not zero, and the layout of its value. -/
structure IsKey (tag : Nat) (t : WireType) (bs : List UInt8) : Prop where
  tag_pos : 0 < tag
  tag_lt : tag < 536870912
  varint : IsVarint 9 (8 * tag + t.number) bs

/-- What a field holds. -/
inductive Held where
  | number (n : Nat)
  | octets (bs : List UInt8)
  /-- Octets of a fixed width, or a group. -/
  | other
  deriving DecidableEq, Repr

structure Field where
  tag : Nat
  held : Held
  deriving DecidableEq, Repr

/-- These octets are fields one after another, with values as `value` says. -/
inductive AreFields (value : Nat → WireType → Held → List UInt8 → Prop) :
    List Field → List UInt8 → Prop
  | nil : AreFields value [] []
  | cons {tag : Nat} {t : WireType} {held : Held} {key bs rest : List UInt8} {fs : List Field}
    (hkey : IsKey tag t key) (hvalue : value tag t held bs) (hrest : AreFields value fs rest) :
    AreFields value (⟨tag, held⟩ :: fs) (key ++ (bs ++ rest))

/-- These octets are the fields of the group with a tag, and its end. -/
def IsGroup (value : Nat → WireType → Held → List UInt8 → Prop) (tag : Nat) (bs : List UInt8) : Prop :=
  ∃ fs inner close, AreFields value fs inner ∧ IsKey tag .groupEnd close ∧ bs = inner ++ close

/-- These octets are the value of a field with a tag; `value` says which ones are values in groups. -/
inductive IsValue (value : Nat → WireType → Held → List UInt8 → Prop) (tag : Nat) :
    WireType → Held → List UInt8 → Prop
  | varint {n : Nat} {bs : List UInt8} (h : IsVarint 9 n bs) : IsValue value tag .varint (.number n) bs
  | fixed64 {bs : List UInt8} (h : bs.length = 8) : IsValue value tag .fixed64 .other bs
  | fixed32 {bs : List UInt8} (h : bs.length = 4) : IsValue value tag .fixed32 .other bs
  | delimited {len body : List UInt8} (h : IsVarint 9 body.length len) :
    IsValue value tag .delimited (.octets body) (len ++ body)
  | group {bs : List UInt8} (h : IsGroup value tag bs) : IsValue value tag .groupStart .other bs

/-- These octets are the value of a field with a tag, and fields in it stand less than `depth` groups
deep. -/
def ValueWithin : (depth tag : Nat) → WireType → Held → List UInt8 → Prop
  | 0, _, _, _, _ => False
  | depth + 1, tag, t, held, bs => IsValue (ValueWithin depth) tag t held bs

/-- These octets are fields one after another, all of them less than `depth` groups deep. -/
def Fields (depth : Nat) : List Field → List UInt8 → Prop := AreFields (ValueWithin depth)

namespace Field

/-- The numbers that fields with a tag hold, in order. -/
def numbers (tag : Nat) (fs : List Field) : List Nat :=
  fs.filterMap fun
    | ⟨t, .number n⟩ => if t = tag then some n else none
    | _ => none

/-- The octets that fields with a tag hold, in order. -/
def contents (tag : Nat) (fs : List Field) : List (List UInt8) :=
  fs.filterMap fun
    | ⟨t, .octets bs⟩ => if t = tag then some bs else none
    | _ => none

/-- The last field with a tag holds a number with these low bits; zero stands for a missing one. -/
def LastNumber (tag : Nat) (fs : List Field) (n : Int32) : Prop :=
  n = Int32.ofInt ((numbers tag fs).getLastD 0)

/-- The last field with a tag holds this text; the empty one stands for a missing one. -/
def LastText (tag : Nat) (fs : List Field) (s : String) : Prop :=
  Text.octets s = (contents tag fs).getLastD []

end Field

end Menagerie.Wire
