import Menagerie.Wire.Varint

/-! Numbers, keys and runs of octets are read as they were written, whatever follows them. Numbers have to
fit in 64 bits, and keys in 32. -/

namespace Menagerie.Wire

/-- The numbers below this fit in `more + 1` octets, the last of which has one bit. -/
def varintBound : (more : Nat) → Nat
  | 0 => 2
  | more + 1 => 128 * varintBound more

theorem length_writeVarint_pos (n : Nat) : 0 < (writeVarint n).length := by
  rw [writeVarint]
  split <;> simp

theorem readVarintFrom_writeVarint {n done more : Nat} (hdone : done + more = 9)
    (hn : n < varintBound more) (rest : List UInt8) :
    readVarintFrom done (writeVarint n ++ rest) = some (n, rest) := by
  -- The induction is on the octets that may still follow. In the tenth, only one bit is left.
  induction more generalizing n done with
  | zero =>
      obtain rfl : done = 9 := hdone
      have hn : n < 2 := hn
      have hoctet : (UInt8.ofNat n).toNat = n := by
        rw [UInt8.toNat_ofNat']
        omega
      rw [writeVarint, if_pos (by omega), List.singleton_append, readVarintFrom, if_pos rfl, hoctet,
        if_pos hn]
  | succ more ih =>
      have hlast : done ≠ 9 := by omega
      rw [writeVarint]
      split
      · next hsmall =>
          have hoctet : (UInt8.ofNat n).toNat = n := by
            rw [UInt8.toNat_ofNat']
            omega
          rw [List.singleton_append, readVarintFrom, if_neg hlast, hoctet, if_pos hsmall]
      · next hlarge =>
          have hn : n < 128 * varintBound more := hn
          have hoctet : (UInt8.ofNat (n % 128 + 128)).toNat = n % 128 + 128 := by
            rw [UInt8.toNat_ofNat']
            omega
          have hhigh : readVarintFrom (done + 1) (writeVarint (n / 128) ++ rest) =
              some (n / 128, rest) := ih (by omega) (by omega)
          rw [List.cons_append, readVarintFrom, if_neg hlast, hoctet, if_neg (by omega), hhigh]
          simp only [Option.some.injEq, Prod.mk.injEq, and_true]
          omega

theorem readVarint_writeVarint {n : Nat} (hn : n < UInt64.size) (rest : List UInt8) :
    readVarint (writeVarint n ++ rest) = .ok (n, rest) := by
  rw [readVarint, readVarintFrom_writeVarint (show 0 + 9 = 9 from rfl) hn]

theorem readKey_writeKey {tag : Nat} (t : WireType) (hpos : 0 < tag) (htag : tag < 536870912)
    (rest : List UInt8) : readKey (writeKey tag t ++ rest) = .ok ((tag, t), rest) := by
  have hnumber : t.number < 8 := by
    cases t <;> decide
  have hkey : 8 * tag + t.number < UInt32.size := by
    rw [UInt32.size]
    omega
  have hword : UInt32.size ≤ UInt64.size := by decide
  have hlow : (8 * tag + t.number) % 8 = t.number := by omega
  have hhigh : (8 * tag + t.number) / 8 = tag := by omega
  rw [readKey, writeKey, readVarint_writeVarint (by omega)]
  simp only [hlow, hhigh, WireType.ofNumber?_number]
  rw [if_neg (by omega), if_neg (by omega)]

theorem readExactly_append {body : List UInt8} {n : Nat} (hn : n = body.length) (rest : List UInt8) :
    readExactly n (body ++ rest) = .ok (body, rest) := by
  subst hn
  rw [readExactly, if_neg (by simp), List.take_left, List.drop_left]

theorem readDelimited_writeDelimited {body : List UInt8} (hbody : body.length < UInt64.size)
    (rest : List UInt8) : readDelimited (writeDelimited body ++ rest) = .ok (body, rest) := by
  rw [readDelimited, writeDelimited, List.append_assoc, readVarint_writeVarint hbody]
  exact readExactly_append rfl rest

/-- Of a number that is extended to 64 bits with its sign, the low bits are the number. -/
theorem ofInt_toNat_toInt64 (n : Int32) : Int32.ofInt n.toInt64.toUInt64.toNat = n := by
  apply Int32.toBitVec_inj.mp
  rw [Int32.toBitVec_ofInt, BitVec.ofInt_natCast, ← UInt64.toNat_toBitVec, Int64.toBitVec_toUInt64,
    Int32.toBitVec_toInt64]
  apply BitVec.eq_of_getLsbD_eq
  intro i hi
  have hlarge : i < 64 := by omega
  rw [BitVec.getLsbD_ofNat, BitVec.testBit_toNat, BitVec.getLsbD_signExtend, if_pos hi]
  simp [hi, hlarge]

end Menagerie.Wire
