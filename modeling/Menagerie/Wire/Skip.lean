import Menagerie.Wire.Varint

/-! Passing over a field that nobody knows. A group ends with the end key of its own number, and its
fields are passed over one level deeper. -/

namespace Menagerie.Wire

/-- Passes over fields with `skipOne` up to the end of group `tag`; every field takes octets, so the
length of the input bounds their number. -/
def skipGroup (skipOne : WireType → Nat → List UInt8 → Except Reason (List UInt8)) (tag : Nat) :
    Nat → List UInt8 → Except Reason (List UInt8)
  | 0, _ => .error .invalidVarint
  | bound + 1, bs =>
    match readKey bs with
    | .error e => .error e
    | .ok ((inner, .groupEnd), rest) => if inner = tag then .ok rest else .error .groupEnd
    | .ok ((inner, t), rest) =>
      match skipOne t inner rest with
      | .error e => .error e
      | .ok rest => skipGroup skipOne tag bound rest

/-- What is left after a field of layout `t` and number `tag`, of which the key has been read. At
most `depth` levels of groups are entered. -/
def skipField : Nat → WireType → Nat → List UInt8 → Except Reason (List UInt8)
  | 0, _, _, _ => .error .tooDeep
  | depth + 1, t, tag, bs =>
    match t with
    | .varint => (readVarint bs).map (·.2)
    | .fixed64 => (readExactly 8 bs).map (·.2)
    | .fixed32 => (readExactly 4 bs).map (·.2)
    | .delimited => (readDelimited bs).map (·.2)
    | .groupStart => skipGroup (skipField depth) tag (bs.length + 1) bs
    | .groupEnd => .error .groupEnd

end Menagerie.Wire
