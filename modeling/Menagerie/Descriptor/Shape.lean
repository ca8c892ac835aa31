import Menagerie.Wire.Message

/-! Parts of descriptors that are checked and not kept: options, reserved numbers and the places of
declarations. A shape says which fields are known and how their values are laid out. -/

namespace Menagerie.Descriptor

inductive Shape where
  | fileOptions | messageOptions | fieldOptions | oneofOptions | enumOptions | enumValueOptions
  | serviceOptions | methodOptions | rangeOptions | range | extensionRange | openOption | optionName
  | sourceInfo | location
  deriving DecidableEq, Repr

/-- How the value of a known field is laid out. -/
inductive Layout where
  | number
  | double
  | text
  | octets
  /-- Numbers one by one or in one run. -/
  | numbers
  | part (s : Shape)
  deriving DecidableEq, Repr

namespace Shape

/-- The known fields of a shape. -/
def layout? : Shape → Nat → Option Layout
  | fileOptions, tag =>
    if tag ∈ [10, 20, 27, 9, 16, 17, 18, 42, 23, 31] then some .number
    else if tag ∈ [1, 8, 11, 36, 37, 39, 40, 41, 44, 45] then some .text
    else openOption? tag
  | messageOptions, tag => if tag ∈ [1, 2, 3, 7] then some .number else openOption? tag
  | fieldOptions, tag => if tag ∈ [1, 2, 3, 5, 6, 10] then some .number else openOption? tag
  | oneofOptions, tag => openOption? tag
  | enumOptions, tag => if tag ∈ [2, 3] then some .number else openOption? tag
  | enumValueOptions, tag => if tag = 1 then some .number else openOption? tag
  | serviceOptions, tag => if tag = 33 then some .number else openOption? tag
  | methodOptions, tag => if tag ∈ [33, 34] then some .number else openOption? tag
  | rangeOptions, tag => openOption? tag
  | range, tag => if tag ∈ [1, 2] then some .number else none
  | extensionRange, tag =>
    if tag ∈ [1, 2] then some .number else if tag = 3 then some (.part rangeOptions) else none
  | openOption, tag =>
    match tag with
    | 2 => some (.part optionName)
    | 3 | 8 => some .text
    | 4 | 5 => some .number
    | 6 => some .double
    | 7 => some .octets
    | _ => none
  | optionName, tag =>
    match tag with
    | 1 => some .text
    | 2 => some .number
    | _ => none
  | sourceInfo, tag => if tag = 1 then some (.part location) else none
  | location, tag =>
    match tag with
    | 1 | 2 => some .numbers
    | 3 | 4 | 6 => some .text
    | _ => none
where
  /-- Every kind of options can hold options that no declaration explains. -/
  openOption? (tag : Nat) : Option Layout := if tag = 999 then some (.part openOption) else none

end Shape

/-- Checks a value and drops it. -/
def drop {α : Type} (read : Wire.Reader α) (bs : List UInt8) :
    Except Wire.Fault (Unit × List UInt8) :=
  match read bs with
  | .ok (_, rest) => .ok ((), rest)
  | .error e => .error ⟨e, []⟩

/-- Checks numbers until `stop` octets are left; `bound` is at least their number. -/
def checkRun (stop : Nat) : Nat → List UInt8 → Except Wire.Fault (Unit × List UInt8)
  | 0, bs => .ok ((), bs)
  | bound + 1, bs =>
    if bs.length ≤ stop then
      if bs.length = stop then .ok ((), bs) else .error ⟨.overrun, []⟩
    else
      match Wire.readVarint bs with
      | .error e => .error ⟨e, []⟩
      | .ok (_, rest) => checkRun stop bound rest

/-- Checks numbers behind the length of their run. -/
def checkNumbers (bs : List UInt8) : Except Wire.Fault (Unit × List UInt8) :=
  match Wire.readVarint bs with
  | .error e => .error ⟨e, []⟩
  | .ok (n, rest) =>
    if rest.length < n then .error ⟨.underflow, []⟩
    else checkRun (rest.length - n) (rest.length + 1) rest

/-- Checks one field of a shape. -/
def checkField : Nat → Shape → Unit → Nat → Wire.WireType → List UInt8 →
    Except Wire.Fault (Unit × List UInt8)
  | depth, shape, _, tag, t, bs =>
    match shape.layout? tag with
    | none => Wire.ignoreField depth () tag t bs
    | some .number => drop (Wire.expecting .varint Wire.readVarint t) bs
    | some .double => drop (Wire.expecting .fixed64 (Wire.readExactly 8) t) bs
    | some .text => drop (Wire.readText t) bs
    | some .octets => drop (Wire.readOctets t) bs
    | some .numbers =>
      if t = .delimited then checkNumbers bs
      else drop (Wire.expecting .varint Wire.readVarint t) bs
    | some (.part inner) =>
      if t ≠ .delimited then .error ⟨.mismatch t .delimited, []⟩
      else
        match depth with
        | 0 => .error ⟨.tooDeep, []⟩
        | depth + 1 => Wire.mergeEnclosed (checkField depth inner) () bs

/-- Checks an embedded part. -/
def checkPart (shape : Shape) (depth : Nat) (t : Wire.WireType) (bs : List UInt8) :
    Except Wire.Fault (Unit × List UInt8) :=
  if t ≠ .delimited then .error ⟨.mismatch t .delimited, []⟩
  else
    match depth with
    | 0 => .error ⟨.tooDeep, []⟩
    | depth + 1 => Wire.mergeEnclosed (checkField depth shape) () bs

end Menagerie.Descriptor
