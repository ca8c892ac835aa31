/-! Internet addresses with a port. An address of version six may carry a scope. -/

namespace Menagerie

/-- An address of version four, its octets in writing order. -/
structure Ip4 where
  a : UInt8
  b : UInt8
  c : UInt8
  d : UInt8
  deriving DecidableEq, Repr

/-- An address of version six, as eight groups in writing order. -/
structure Ip6 where
  groups : List UInt16
  length_groups : groups.length = 8
  deriving DecidableEq, Repr

inductive SocketAddress where
  | v4 (ip : Ip4) (port : UInt16)
  | v6 (ip : Ip6) (scope : UInt32) (port : UInt16)
  deriving DecidableEq, Repr

/-- The address that stands for every address of the machine. -/
def Ip4.any : Ip4 := ⟨0, 0, 0, 0⟩

/-- Eight groups as an address. -/
def Ip6.ofGroups? (groups : List UInt16) : Option Ip6 :=
  if h : groups.length = 8 then some ⟨groups, h⟩ else none

end Menagerie
