import Menagerie.Listeners

/-! Listeners after any steps. Whoever asks for a port meets a system that refuses the ports of the open
slots and may reserve some below 1024; all others it grants, and for port zero it offers one of those. -/

namespace Menagerie

/-- The network that open slots meet: they alone hold ports, and the port on offer can be had. -/
structure Network.Surrounds (net : Network) (reserved : List (UInt16 × SystemError)) (ls : Listeners) :
    Prop where
  held : net.held = ls.held
  reserves : net.reserved = reserved
  offer_ne_zero : net.offer ≠ 0
  offer_not_mem_held : net.offer ∉ ls.held
  offer_unreserved : reserved.lookup net.offer = none

/-- A port given by its number is not one of those from 1 to 1023. -/
def PortChoice.IsUnprivileged : PortChoice → Prop
  | .number port => port.toInt < 1 ∨ 1023 < port.toInt
  | .sameAs _ => True

namespace Listeners

/-- What steps can lead to. A port is asked for, be it granted or not, or a slot is closed. -/
inductive Reached (reserved : List (UInt16 × SystemError)) : Listeners → Prop
  | start : Reached reserved {}
  | acquire {ls : Listeners} {net : Network} {choice : PortChoice} {port : Int64}
      (reached : Reached reserved ls) (hnet : net.Surrounds reserved ls)
      (hchoice : choice.IsUnprivileged) (hport : ls.port? choice = some port) (slot : Option String) :
      Reached reserved (ls.acquireOn net port slot).2
  | close {ls : Listeners} (reached : Reached reserved ls) (name : String) :
      Reached reserved (ls.close name).2

/-- An open slot has a port. -/
def Holds (ls : Listeners) (port : UInt16) : Prop :=
  ∃ name s, ls.slot? name = some s ∧ s.isOpen = true ∧ s.port = port

/-- Closes slots one after the other. -/
def closeAll (ls : Listeners) (names : List String) : Listeners :=
  names.foldl (fun ls name => (ls.close name).2) ls

end Listeners

end Menagerie
