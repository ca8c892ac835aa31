import Menagerie.Rpc.Failure

/-! Messages in a body. Each message stands behind a flag, which says whether it is packed, and behind
its length in four octets, the highest first. -/

namespace Menagerie.Rpc

/-- A number in four octets, the highest first. -/
def writeLength (n : Nat) : List UInt8 :=
  [UInt8.ofNat (n >>> 24), UInt8.ofNat (n >>> 16), UInt8.ofNat (n >>> 8), UInt8.ofNat n]

def readLength (a b c d : UInt8) : Nat :=
  ((a.toNat * 256 + b.toNat) * 256 + c.toNat) * 256 + d.toNat

def writeFrame (flag : UInt8) (content : List UInt8) : List UInt8 :=
  flag :: writeLength content.length ++ content

/-- A message as an answer carries it. -/
def writeMessage (codec : Option Codec) (content : List UInt8) : List UInt8 :=
  match codec with
  | none => writeFrame 0 content
  | some c => writeFrame 1 (c.pack content)

/-- How to unpack the content behind a flag. -/
def unpacker (codec : Option Codec) (flag : UInt8) :
    Except Failure (List UInt8 → Except Failure (List UInt8)) :=
  if flag = 0 then .ok .ok
  else if flag = 1 then
    match codec with
    | none => .error .unannouncedCoding
    | some c => .ok fun bs => (c.unpack bs).mapError .unpacking
  else .error (.invalidFlag flag)

/-- The messages of a body in order, up to the first failure. -/
structure Messages where
  contents : List (List UInt8)
  failure : Option Failure

/-- Reads the messages of a body. One that has a header but no content at all counts as none. -/
def readMessages (codec : Option Codec) : List UInt8 → Messages
  | [] => ⟨[], none⟩
  | flag :: a :: b :: c :: d :: rest =>
    match unpacker codec flag with
    | .error f => ⟨[], some f⟩
    | .ok unpack =>
      let length := readLength a b c d
      if lengthLimit < length then ⟨[], some (.tooLong length)⟩
      else if rest.length < length then
        ⟨[], if rest.isEmpty then none else some .unfinishedMessage⟩
      else
        match unpack (rest.take length) with
        | .error f => ⟨[], some f⟩
        | .ok content =>
          let more := readMessages codec (rest.drop length)
          ⟨content :: more.contents, more.failure⟩
  | _ => ⟨[], some .unfinishedMessage⟩
termination_by bs => bs.length
decreasing_by
  simp only [List.length_cons, List.length_drop]
  omega

theorem readLength_writeLength {n : Nat} (h : n < UInt32.size) :
    readLength (UInt8.ofNat (n >>> 24)) (UInt8.ofNat (n >>> 16)) (UInt8.ofNat (n >>> 8))
      (UInt8.ofNat n) = n := by
  have h : n < 4294967296 := h
  simp only [readLength, UInt8.toNat_ofNat', Nat.shiftRight_eq_div_pow]
  omega

namespace Messages

/-- The messages decoded in order, up to the first failure. -/
def decodeFrom {α : Type} (read : List UInt8 → Except Wire.Fault α) (failure : Option Failure) :
    List (List UInt8) → List α × Option Failure
  | [] => ([], failure)
  | content :: rest =>
    match read content with
    | .error f => ([], some (.undecodable f))
    | .ok a =>
      let (more, failure) := decodeFrom read failure rest
      (a :: more, failure)

def decode {α : Type} (read : List UInt8 → Except Wire.Fault α) (ms : Messages) :
    List α × Option Failure := decodeFrom read ms.failure ms.contents

/-- The one message of a request: the first one, if the whole body is in order. -/
def single {α : Type} (read : List UInt8 → Except Wire.Fault α) (ms : Messages) : Except Failure α :=
  match ms.decode read with
  | (_, some f) => .error f
  | ([], none) => .error .missingMessage
  | (a :: _, none) => .ok a

end Messages

end Menagerie.Rpc
