import Menagerie.Proofs.Text.Octets
import Menagerie.Proofs.Wire.Varint
import Menagerie.Wire.Message

/-! Messages are read field by field. What is written for a field, be it nothing, sets the field when it is
read, and leaves alone what follows; so do fields one after another, and an embedded message. -/

namespace Menagerie

namespace Wire

variable {M : Type} {step : M → Nat → WireType → List UInt8 → Except Fault (M × List UInt8)}
  {stop : Nat} {m m' : M} {rest : List UInt8}

/-- Fields that are merged with `step` lead from one message and the octets in front of it to another one.
More than `stop` octets are left in front of each field, and each takes some of them. -/
inductive Merges (step : M → Nat → WireType → List UInt8 → Except Fault (M × List UInt8)) (stop : Nat) :
    M → List UInt8 → M → List UInt8 → Prop
  | done (m : M) (bs : List UInt8) : Merges step stop m bs m bs
  | field {m next last : M} {bs value after rest : List UInt8} {tag : Nat} {t : WireType}
    (hmore : stop < bs.length) (hkey : readKey bs = .ok ((tag, t), value))
    (hstep : step m tag t value = .ok (next, after)) (hshort : after.length < bs.length)
    (h : Merges step stop next after last rest) : Merges step stop m bs last rest

theorem Merges.trans {m₁ m₂ m₃ : M} {bs₁ bs₂ bs₃ : List UInt8} (h : Merges step stop m₁ bs₁ m₂ bs₂)
    (h' : Merges step stop m₂ bs₂ m₃ bs₃) : Merges step stop m₁ bs₁ m₃ bs₃ := by
  induction h with
  | done => exact h'
  | field hmore hkey hstep hshort _ ih => exact .field hmore hkey hstep hshort (ih h')

theorem Merges.mergeFields_eq {bs : List UInt8} (h : Merges step stop m bs m' rest)
    (hrest : rest.length ≤ stop) {bound : Nat} (hbound : bs.length ≤ bound) :
    mergeFields step stop bound m bs = .ok (m', rest) := by
  -- Each field takes octets, so that the bound never ends the reading.
  induction h generalizing bound with
  | done m bs =>
      cases bound with
      | zero => rfl
      | succ bound => rw [mergeFields, if_pos hrest]
  | @field _ _ _ bs _ _ _ _ _ hmore hkey hstep hshort _ ih =>
      cases bound with
      | zero => omega
      | succ bound =>
          simp only [mergeFields, if_neg (Nat.not_le_of_lt hmore), hkey, hstep]
          exact ih hrest (by omega)

theorem Merges.merge_eq [Message M] {bs : List UInt8}
    (h : Merges (Message.mergeField depthLimit) 0 m bs m' []) : merge m bs = .ok m' := by
  rw [merge, h.mergeFields_eq (Nat.le_refl 0) (Nat.le_refl bs.length)]
  rfl

/-! ### One field -/

theorem readInt32_writeSigned (n : Int32) (rest : List UInt8) :
    readInt32 .varint (writeSigned n ++ rest) = .ok (n, rest) := by
  simp only [readInt32, expecting, if_true, writeSigned,
    readVarint_writeVarint n.toInt64.toUInt64.toNat_lt_size, ofInt_toNat_toInt64]

theorem readText_writeDelimited {s : String} (hs : (Text.octets s).length < UInt64.size)
    (rest : List UInt8) : readText .delimited (writeDelimited (Text.octets s) ++ rest) = .ok (s, rest) := by
  simp only [readText, readOctets, expecting, if_true, readDelimited_writeDelimited hs, Text.text?_octets]

theorem mergeEmbedded_writeDelimited {N : Type} [Message N] {depth : Nat} {x : N}
    (hx : (Message.encode x).length < UInt64.size)
    (h : Merges (Message.mergeField depth) rest.length Message.blank (Message.encode x ++ rest) x rest) :
    mergeEmbedded (depth + 1) Message.blank .delimited (writeDelimited (Message.encode x) ++ rest) =
      .ok (x, rest) := by
  have hlength : (Message.encode x ++ rest).length - (Message.encode x).length = rest.length := by
    simp
  simp only [mergeEmbedded, ne_eq, not_true, if_false, mergeEnclosed, writeDelimited,
    List.append_assoc, readVarint_writeVarint hx, hlength]
  rw [if_neg (by simp), h.mergeFields_eq (Nat.le_refl _) (Nat.le_refl _)]
  simp

section

variable {tag : Nat} (hpos : 0 < tag) (htag : tag < 536870912) (hstop : stop ≤ rest.length)
include hpos htag hstop

theorem Merges.writeKey {t : WireType} {value : List UInt8}
    (hstep : step m tag t (value ++ rest) = .ok (m', rest)) :
    Merges step stop m (writeKey tag t ++ value ++ rest) m' rest := by
  have hlength : 0 < (Wire.writeKey tag t).length := length_writeVarint_pos _
  have hkey := readKey_writeKey t hpos htag (value ++ rest)
  rw [← List.append_assoc] at hkey
  refine .field ?_ hkey hstep ?_ (.done m' rest)
  all_goals simp only [List.length_append]; omega

variable {messageName fieldName : String}

theorem Merges.writeInt32_of_read (set : Int32 → M) (hblank : set 0 = m)
    (hstep : ∀ bs n after, readInt32 .varint bs = .ok (n, after) → step m tag .varint bs = .ok (set n, after))
    (n : Int32) : Merges step stop m (writeInt32 tag n ++ rest) (set n) rest := by
  unfold Wire.writeInt32
  split
  · next hzero =>
      rw [hzero, hblank]
      exact .done m rest
  · exact Merges.writeKey hpos htag hstop (hstep _ _ _ (readInt32_writeSigned n rest))

theorem Merges.writeInt32 (set : Int32 → M) (hblank : set 0 = m)
    (hstep : ∀ bs, step m tag .varint bs = setField messageName fieldName set (readInt32 .varint bs))
    (n : Int32) : Merges step stop m (writeInt32 tag n ++ rest) (set n) rest :=
  .writeInt32_of_read hpos htag hstop set hblank (fun bs n after hread => by rw [hstep, hread, setField]) n

theorem Merges.writeText_of_read (set : String → M) (hblank : set "" = m)
    (hstep : ∀ bs s after, readText .delimited bs = .ok (s, after) →
      step m tag .delimited bs = .ok (set s, after))
    {s : String} (hs : (Text.octets s).length < UInt64.size) :
    Merges step stop m (writeText tag s ++ rest) (set s) rest := by
  unfold Wire.writeText
  split
  · next hempty =>
      rw [hempty, hblank]
      exact .done m rest
  · exact Merges.writeKey hpos htag hstop (hstep _ _ _ (readText_writeDelimited hs rest))

theorem Merges.writeText (set : String → M) (hblank : set "" = m)
    (hstep : ∀ bs, step m tag .delimited bs = setField messageName fieldName set (readText .delimited bs))
    {s : String} (hs : (Text.octets s).length < UInt64.size) :
    Merges step stop m (writeText tag s ++ rest) (set s) rest :=
  .writeText_of_read hpos htag hstop set hblank (fun bs s after hread => by rw [hstep, hread, setField]) hs

theorem Merges.writeEmbedded {N : Type} [Message N] {depth : Nat} (set : N → M) {x : N}
    (hstep : ∀ bs, step m tag .delimited bs =
      setEmbedded messageName fieldName set (mergeEmbedded (depth + 1) Message.blank .delimited bs))
    (hx : (Message.encode x).length < UInt64.size)
    (h : Merges (Message.mergeField depth) rest.length Message.blank (Message.encode x ++ rest) x rest) :
    Merges step stop m (writeEmbedded tag (some x) ++ rest) (set x) rest := by
  refine Merges.writeKey hpos htag hstop ?_
  rw [hstep, mergeEmbedded_writeDelimited hx h]
  rfl

end

theorem length_encode_le_writeEmbedded {N : Type} [Message N] (tag : Nat) (x : N) :
    (Message.encode x).length ≤ (writeEmbedded tag (some x)).length := by
  simp only [writeEmbedded, writeDelimited, List.length_append]
  omega

/-- A message that has one embedded message and nothing else is read as it was written. -/
theorem decode_writeEmbedded {N : Type} [Message M] [Message N] {tag : Nat} (hpos : 0 < tag)
    (htag : tag < 536870912) {messageName fieldName : String} (set : N → M) {x : N}
    (hstep : ∀ bs, Message.mergeField depthLimit (Message.blank : M) tag .delimited bs =
      setEmbedded messageName fieldName set (mergeEmbedded depthLimit Message.blank .delimited bs))
    (hlength : (writeEmbedded tag (some x)).length < UInt64.size)
    (h : Merges (Message.mergeField (depthLimit - 1)) 0 Message.blank (Message.encode x ++ []) x []) :
    decode M (writeEmbedded tag (some x)) = .ok (set x) := by
  have hx := Nat.lt_of_le_of_lt (length_encode_le_writeEmbedded tag x) hlength
  have hmerges : Merges (Message.mergeField depthLimit) 0 Message.blank
      (writeEmbedded tag (some x) ++ []) (set x) [] :=
    .writeEmbedded hpos htag (Nat.le_refl 0) set hstep hx h
  rw [List.append_nil] at hmerges
  exact hmerges.merge_eq

theorem length_octets_le_writeText (tag : Nat) (s : String) :
    (Text.octets s).length ≤ (writeText tag s).length := by
  unfold writeText
  split
  · next hempty =>
      rw [hempty]
      exact Nat.le_refl 0
  · simp only [writeDelimited, List.length_append]
    omega

/-- A message that has one text and nothing else is read as it was written. -/
theorem decode_writeText [Message M] {tag : Nat} (hpos : 0 < tag) (htag : tag < 536870912)
    {messageName fieldName : String} (set : String → M) (hblank : set "" = Message.blank)
    (hstep : ∀ bs, Message.mergeField depthLimit (Message.blank : M) tag .delimited bs =
      setField messageName fieldName set (readText .delimited bs))
    {s : String} (hlength : (writeText tag s).length < UInt64.size) :
    decode M (writeText tag s) = .ok (set s) := by
  have hs := Nat.lt_of_le_of_lt (length_octets_le_writeText tag s) hlength
  have hmerges : Merges (Message.mergeField depthLimit) 0 Message.blank (writeText tag s ++ []) (set s) [] :=
    .writeText hpos htag (Nat.le_refl 0) set hblank hstep hs
  rw [List.append_nil] at hmerges
  exact hmerges.merge_eq

end Wire

end Menagerie
