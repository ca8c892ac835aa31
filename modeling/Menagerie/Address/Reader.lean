import Menagerie.Address

/-! Addresses read from texts. Numbers in an address of version four have no zeros in front; the last
two groups of one of version six may be written in dotted form, but not in front of two colons. -/

namespace Menagerie.Address

/-- A reader takes characters from the front of a text. -/
abbrev Reader (α : Type) := List Char → Option (α × List Char)

def digitOf? (radix : Nat) (c : Char) : Option Nat :=
  let value? : Option Nat :=
    if '0' ≤ c ∧ c ≤ '9' then some (c.toNat - '0'.toNat)
    else if 'a' ≤ c ∧ c ≤ 'f' then some (c.toNat - 'a'.toNat + 10)
    else if 'A' ≤ c ∧ c ≤ 'F' then some (c.toNat - 'A'.toNat + 10)
    else none
  value?.filter (· < radix)

/-- The value of the digits at the front, after digits of value `n`, with their number. -/
def readDigits (radix : Nat) (n count : Nat) : List Char → (Nat × Nat) × List Char
  | [] => ((n, count), [])
  | c :: rest =>
    match digitOf? radix c with
    | some d => readDigits radix (radix * n + d) (count + 1) rest
    | none => ((n, count), c :: rest)

/-- A number below `bound` of at most `most` digits. -/
def readNumber (radix bound : Nat) (most : Option Nat) (zeroPrefix : Bool) : Reader Nat := fun cs =>
  let ((n, count), rest) := readDigits radix 0 0 cs
  if count = 0 ∨ most.any (· < count) ∨ (!zeroPrefix ∧ cs.head? = some '0' ∧ 1 < count) ∨ bound ≤ n
  then none
  else some (n, rest)

def readChar (c : Char) : Reader Unit
  | d :: rest => if d = c then some ((), rest) else none
  | [] => none

def readIp4 : Reader Ip4 := fun cs => do
  let octet := readNumber 10 256 (some 3) false
  let (a, cs) ← octet cs
  let (_, cs) ← readChar '.' cs
  let (b, cs) ← octet cs
  let (_, cs) ← readChar '.' cs
  let (c, cs) ← octet cs
  let (_, cs) ← readChar '.' cs
  let (d, cs) ← octet cs
  some (⟨UInt8.ofNat a, UInt8.ofNat b, UInt8.ofNat c, UInt8.ofNat d⟩, cs)

/-- Reads what follows a colon, which the first item of a row does not need. -/
def afterColon {α : Type} (first : Bool) (read : Reader α) : Reader α := fun cs =>
  if first then read cs else (readChar ':' cs).bind fun r => read r.2

/-- Up to `room` groups between colons, with the last two possibly in dotted form; tells whether they
were. -/
def readGroups (first : Bool) : Nat → List Char → (List UInt16 × Bool) × List Char
  | 0, cs => (([], false), cs)
  | room + 1, cs =>
    match (if room = 0 then none else afterColon first readIp4 cs) with
    | some (ip, rest) =>
      (([UInt16.ofNat (256 * ip.a.toNat + ip.b.toNat), UInt16.ofNat (256 * ip.c.toNat + ip.d.toNat)],
        true), rest)
    | none =>
      match afterColon first (readNumber 16 65536 (some 4) true) cs with
      | some (g, rest) =>
        let ((groups, dotted), rest) := readGroups false room rest
        ((UInt16.ofNat g :: groups, dotted), rest)
      | none => (([], false), cs)

def readIp6 : Reader Ip6 := fun cs =>
  let ((head, dotted), cs) := readGroups true 8 cs
  if head.length = 8 then (Ip6.ofGroups? head).map (·, cs)
  else if dotted then none
  else do
    let (_, cs) ← readChar ':' cs
    let (_, cs) ← readChar ':' cs
    let ((tail, _), cs) := readGroups true (7 - head.length) cs
    let zeros := List.replicate (8 - head.length - tail.length) (0 : UInt16)
    (Ip6.ofGroups? (head ++ zeros ++ tail)).map (·, cs)

def readPort : Reader UInt16 := fun cs => do
  let (_, cs) ← readChar ':' cs
  let (n, cs) ← readNumber 10 65536 none true cs
  some (UInt16.ofNat n, cs)

def readScope : Reader UInt32 := fun cs =>
  match readChar '%' cs with
  | none => some (0, cs)
  | some (_, rest) =>
    match readNumber 10 UInt32.size none true rest with
    | some (n, rest) => some (UInt32.ofNat n, rest)
    | none => some (0, cs)

def readSocketAddress : Reader SocketAddress := fun cs =>
  match readIp4 cs with
  | some (ip, rest) => do
    let (port, rest) ← readPort rest
    some (.v4 ip port, rest)
  | none => do
    let (_, cs) ← readChar '[' cs
    let (ip, cs) ← readIp6 cs
    let (scope, cs) ← readScope cs
    let (_, cs) ← readChar ']' cs
    let (port, cs) ← readPort cs
    some (.v6 ip scope port, cs)

end Menagerie.Address

namespace Menagerie

/-- The address that a whole text denotes. -/
def SocketAddress.read? (s : String) : Option SocketAddress :=
  match Address.readSocketAddress s.toList with
  | some (a, []) => some a
  | _ => none

end Menagerie
