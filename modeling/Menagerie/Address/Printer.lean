import Menagerie.Address
import Menagerie.Text.Quoted

/-! Addresses as texts. Of the runs of two or more zero groups in an address of version six the first
longest one is written as two colons; an address that maps one of version four ends in its dotted
form; a scope is written unless it is zero. -/

namespace Menagerie

def Ip4.print (ip : Ip4) : String :=
  s!"{ip.a.toNat}.{ip.b.toNat}.{ip.c.toNat}.{ip.d.toNat}"

namespace Ip6

/-- The number of zeros at the front. -/
def leadingZeros : List UInt16 → Nat
  | [] => 0
  | g :: rest => if g = 0 then leadingZeros rest + 1 else 0

/-- Start and length of the first longest run of zeros in groups that begin at index `start`. -/
def longestZeros (start : Nat) : List UInt16 → Nat × Nat
  | [] => (start, 0)
  | g :: rest =>
    let here := leadingZeros (g :: rest)
    let later := longestZeros (start + 1) rest
    if later.2 ≤ here then (start, here) else later

/-- Groups in hexadecimal between colons. -/
def printGroups (groups : List UInt16) : String :=
  ":".intercalate (groups.map fun g => Text.hexadecimal g.toNat)

/-- The address of version four that an address maps. -/
def mapped? : List UInt16 → Option Ip4
  | [0, 0, 0, 0, 0, 0xffff, g, h] =>
    some ⟨UInt8.ofNat (g.toNat / 256), UInt8.ofNat (g.toNat % 256), UInt8.ofNat (h.toNat / 256),
      UInt8.ofNat (h.toNat % 256)⟩
  | _ => none

def print (ip : Ip6) : String :=
  match mapped? ip.groups with
  | some ip4 => "::ffff:" ++ ip4.print
  | none =>
    let zeros := longestZeros 0 ip.groups
    if zeros.2 < 2 then printGroups ip.groups
    else printGroups (ip.groups.take zeros.1) ++ "::"
      ++ printGroups (ip.groups.drop (zeros.1 + zeros.2))

end Ip6

def SocketAddress.print : SocketAddress → String
  | .v4 ip port => s!"{ip.print}:{port.toNat}"
  | .v6 ip scope port =>
    let suffix := if scope = 0 then "" else s!"%{scope.toNat}"
    s!"[{ip.print}{suffix}]:{port.toNat}"

end Menagerie
