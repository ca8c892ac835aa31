import Menagerie.Wire.Fault

/-! Numbers in groups of seven bits, the lowest first; every octet but the last has its high bit
set. A written number has as few octets as it can, a read one may have up to ten, the tenth holding
the top bit of a 64-bit number. -/

namespace Menagerie.Wire

def writeVarint (n : Nat) : List UInt8 :=
  if n < 128 then [UInt8.ofNat n] else UInt8.ofNat (n % 128 + 128) :: writeVarint (n / 128)
termination_by n
decreasing_by omega

/-- A 32-bit number, extended to 64 bits with its sign. -/
def writeSigned (n : Int32) : List UInt8 := writeVarint n.toInt64.toUInt64.toNat

/-- Reads a number of which `done` octets have been read. -/
def readVarintFrom (done : Nat) : List UInt8 → Option (Nat × List UInt8)
  | [] => none
  | b :: rest =>
    if done = 9 then
      if b.toNat < 2 then some (b.toNat, rest) else none
    else if b.toNat < 128 then some (b.toNat, rest)
    else
      match readVarintFrom (done + 1) rest with
      | some (n, rest) => some (b.toNat - 128 + 128 * n, rest)
      | none => none

def readVarint : Reader Nat := fun bs =>
  match readVarintFrom 0 bs with
  | some r => .ok r
  | none => .error .invalidVarint

/-- The key of a field: its number and the layout of its value. -/
def writeKey (tag : Nat) (t : WireType) : List UInt8 := writeVarint (8 * tag + t.number)

/-- Reads a key; numbers above 32 bits, unknown layouts and the tag zero are refused in this order. -/
def readKey : Reader (Nat × WireType) := fun bs =>
  match readVarint bs with
  | .error e => .error e
  | .ok (key, rest) =>
    if UInt32.size ≤ key then .error (.invalidKey key)
    else
      match WireType.ofNumber? (key % 8) with
      | none => .error (.invalidWireType (key % 8))
      | some t => if key / 8 = 0 then .error .zeroTag else .ok ((key / 8, t), rest)

/-- A run of octets behind its length. -/
def writeDelimited (body : List UInt8) : List UInt8 := writeVarint body.length ++ body

/-- The first `n` octets and the others. -/
def readExactly (n : Nat) : Reader (List UInt8) := fun bs =>
  if bs.length < n then .error .underflow else .ok (bs.take n, bs.drop n)

def readDelimited : Reader (List UInt8) := fun bs =>
  match readVarint bs with
  | .error e => .error e
  | .ok (n, rest) => readExactly n rest

end Menagerie.Wire
