/-! Texts as octets. A text is its UTF-8 octets; octets from outside may fail to be a text, and are
then either refused (`text?`) or shown with replacement characters (`lossyText`). -/

namespace Menagerie.Text

def octets (s : String) : List UInt8 := s.toByteArray.data.toList

/-- The text with the given octets, if they are well-formed UTF-8. -/
def text? (bs : List UInt8) : Option String := String.fromUTF8? bs.toByteArray

/-- The octets of a character that are still missing: their number, the range of the next one, and
the bits read so far. -/
structure Pending where
  missing : Nat
  low : Nat
  high : Nat
  bits : Nat

/-- What an octet outside a character starts: a character of its own, a longer one, or nothing. -/
def startOctet (b : Nat) : Sum (Option Char) Pending :=
  if b < 0x80 then .inl (some (Char.ofNat b))
  else if b < 0xc2 then .inl none
  else if b < 0xe0 then .inr ⟨1, 0x80, 0xbf, b - 0xc0⟩
  else if b == 0xe0 then .inr ⟨2, 0xa0, 0xbf, 0⟩
  else if b == 0xed then .inr ⟨2, 0x80, 0x9f, 0xd⟩
  else if b < 0xf0 then .inr ⟨2, 0x80, 0xbf, b - 0xe0⟩
  else if b == 0xf0 then .inr ⟨3, 0x90, 0xbf, 0⟩
  else if b < 0xf4 then .inr ⟨3, 0x80, 0xbf, b - 0xf0⟩
  else if b == 0xf4 then .inr ⟨3, 0x80, 0x8f, 4⟩
  else .inl none

def replacement : Char := Char.ofNat 0xfffd

/-- Reads octets with a replacement character for every longest stretch that starts a character
without finishing it, and for every octet that cannot start one. -/
def lossy : Option Pending → List UInt8 → List Char
  | none, [] => []
  | some _, [] => [replacement]
  | pending, b :: rest =>
    let fresh (shown : List Char) : List Char :=
      match startOctet b.toNat with
      | .inl c => shown ++ c.getD replacement :: lossy none rest
      | .inr p => shown ++ lossy (some p) rest
    match pending with
    | none => fresh []
    | some p =>
      if p.low ≤ b.toNat ∧ b.toNat ≤ p.high then
        let bits := p.bits * 64 + (b.toNat - 0x80)
        if p.missing == 1 then Char.ofNat bits :: lossy none rest
        else lossy (some ⟨p.missing - 1, 0x80, 0xbf, bits⟩) rest
      else fresh [replacement]

def lossyText (bs : List UInt8) : String := String.ofList (lossy none bs)

/-- A string from outside: a text, or octets that are none. -/
inductive Raw where
  | text (s : String)
  | bytes (bs : List UInt8)
  deriving DecidableEq, Repr

namespace Raw

def ofOctets (bs : List UInt8) : Raw :=
  match text? bs with
  | some s => .text s
  | none => .bytes bs

def octets : Raw → List UInt8
  | .text s => Text.octets s
  | .bytes bs => bs

def text? : Raw → Option String
  | .text s => some s
  | .bytes bs => Text.text? bs

def shown : Raw → String
  | .text s => s
  | .bytes bs => lossyText bs

end Raw

end Menagerie.Text
