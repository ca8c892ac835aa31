import Menagerie.Rpc.Coding

/-! The gzip format without compression. Octets stand in blocks as they are, each block behind a mark and
its length twice, the second time with all bits turned; a checksum and the length of the whole follow.
Compressed blocks are not read. -/

namespace Menagerie.Rpc

namespace Gzip

/-! ### Numbers, the lowest octet first -/

def writeHalf (n : Nat) : List UInt8 := [UInt8.ofNat n, UInt8.ofNat (n / 256)]

def writeWord (n : Nat) : List UInt8 := writeHalf n ++ writeHalf (n / 65536)

def readHalf (low high : UInt8) : Nat := low.toNat + 256 * high.toNat

theorem readHalf_ofNat {n : Nat} (h : n ≤ 65535) :
    readHalf (UInt8.ofNat n) (UInt8.ofNat (n / 256)) = n := by
  simp only [readHalf, UInt8.toNat_ofNat']
  omega

/-! ### The checksum -/

def checksumBit (c : UInt32) : UInt32 :=
  if c % 2 = 1 then (c >>> 1) ^^^ 0xedb88320 else c >>> 1

def checksumOctet (c : UInt32) (b : UInt8) : UInt32 := Nat.repeat checksumBit 8 (c ^^^ b.toUInt32)

/-- The remainder of octets modulo the polynomial of the format. -/
def checksum (bs : List UInt8) : UInt32 := bs.foldl checksumOctet 0xffffffff ^^^ 0xffffffff

/-- The check value that the format publishes, of the digits from one to nine. -/
example : checksum [49, 50, 51, 52, 53, 54, 55, 56, 57] = 0xcbf43926 := by decide +kernel

/-! ### Blocks -/

/-- A block holds at most as many octets. -/
def blockLimit : Nat := 65535

/-- Octets in a block; the mark 1 is that of the last block. -/
def writeBlock (mark : UInt8) (bs : List UInt8) : List UInt8 :=
  mark :: (writeHalf bs.length ++ writeHalf (blockLimit - bs.length)) ++ bs

def writeBlocks (bs : List UInt8) : List UInt8 :=
  if bs.length ≤ blockLimit then writeBlock 1 bs
  else writeBlock 0 (bs.take blockLimit) ++ writeBlocks (bs.drop blockLimit)
termination_by bs.length
decreasing_by
  simp only [List.length_drop, blockLimit] at *
  omega

def truncated : String := "unexpected end of file"

def corrupt : String := "corrupt deflate stream"

/-- The octets in blocks up to the last one, and what follows it. -/
def readBlocks : List UInt8 → Except String (List UInt8 × List UInt8)
  | mark :: a :: b :: c :: d :: rest =>
    let length := readHalf a b
    if length + readHalf c d ≠ blockLimit then .error corrupt
    else if rest.length < length then .error truncated
    else if mark = 1 then .ok (rest.take length, rest.drop length)
    else if mark = 0 then
      match readBlocks (rest.drop length) with
      | .error e => .error e
      | .ok (more, after) => .ok (rest.take length ++ more, after)
    else .error corrupt
  | _ => .error truncated
termination_by bs => bs.length
decreasing_by
  simp only [List.length_cons, List.length_drop]
  omega

/-! ### The whole -/

/-- The format, the method, and that nothing is said of the name, the time and the system of a file. -/
def header : List UInt8 := [0x1f, 0x8b, 8, 0, 0, 0, 0, 0, 0, 0xff]

def trailer (bs : List UInt8) : List UInt8 := writeWord (checksum bs).toNat ++ writeWord bs.length

def pack (bs : List UInt8) : List UInt8 := header ++ (writeBlocks bs ++ trailer bs)

def unpack (bs : List UInt8) : Except String (List UInt8) :=
  if bs.take header.length ≠ header then .error "invalid gzip header"
  else
    match readBlocks (bs.drop header.length) with
    | .error e => .error e
    | .ok (content, after) =>
      if after = trailer content then .ok content
      else .error "corrupt gzip stream does not have a matching checksum"

theorem readBlocks_block {bs rest : List UInt8} (mark : UInt8) (h : bs.length ≤ blockLimit) :
    readBlocks (writeBlock mark bs ++ rest) =
      if mark = 1 then .ok (bs, rest)
      else if mark = 0 then
        match readBlocks rest with
        | .error e => .error e
        | .ok (more, after) => .ok (bs ++ more, after)
      else .error corrupt := by
  have h : bs.length ≤ 65535 := h
  have hlength := readHalf_ofNat h
  have hturned := readHalf_ofNat (Nat.sub_le 65535 bs.length)
  simp only [writeBlock, writeHalf, blockLimit, List.cons_append, List.nil_append]
  rw [readBlocks]
  simp only [hlength, hturned, blockLimit]
  rw [if_neg (by omega), if_neg (by simp), List.take_left, List.drop_left]

theorem readBlocks_writeBlocks (bs rest : List UInt8) :
    readBlocks (writeBlocks bs ++ rest) = .ok (bs, rest) := by
  fun_induction writeBlocks bs with
  | case1 bs h => rw [readBlocks_block 1 h, if_pos rfl]
  | case2 bs h ih =>
    rw [List.append_assoc, readBlocks_block 0 (List.length_take_le _ _), if_neg (by decide), if_pos rfl, ih]
    simp only [List.take_append_drop]

theorem unpack_pack (bs : List UInt8) : unpack (pack bs) = .ok bs := by
  simp only [unpack, pack, List.take_left, List.drop_left, readBlocks_writeBlocks]
  rfl

end Gzip

/-- Packs octets in the gzip format as they are. -/
def Codec.stored : Codec where
  pack := Gzip.pack
  unpack := Gzip.unpack
  unpack_pack := Gzip.unpack_pack

end Menagerie.Rpc
