import Menagerie.Text.Octets

/-! Texts for a header line. Printable ASCII stands for itself, apart from the blank and a few marks;
every other octet is written as a percent sign and two digits. -/

namespace Menagerie.Text

/-- Marks that are written by their number although they are printable. -/
def reservedMarks : List Char := ['"', '#', '%', '<', '>', '?', '`', '\x7b', '\x7d']

/-- Whether an octet stands for itself. -/
def isPlainOctet (b : UInt8) : Bool :=
  0x20 < b && b < 0x7f && !reservedMarks.contains (Char.ofNat b.toNat)

def upperDigit (n : Nat) : Char := (Nat.digitChar n).toUpper

/-- An octet in a header line. -/
def percentOctet (b : UInt8) : List Char :=
  if isPlainOctet b then [Char.ofNat b.toNat]
  else ['%', upperDigit (b.toNat / 16), upperDigit (b.toNat % 16)]

def percentEncode (s : String) : String := String.ofList ((octets s).flatMap percentOctet)

end Menagerie.Text
