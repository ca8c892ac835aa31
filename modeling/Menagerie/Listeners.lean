import Menagerie.Port
import Menagerie.StartupError

/-! Listening on ports. A port has one listener at a time; whoever asks for port zero is offered a
free one. Ports below 1024 may be reserved for others. Listeners can be kept in named slots, and a slot
remembers its port when the listener is closed. -/

namespace Menagerie

/-- Every address of the machine at a port. -/
def SocketAddress.anyAt (port : UInt16) : SocketAddress := .v4 Ip4.any port

/-- Which ports other listeners hold, and which free port is offered next. -/
structure Network where
  held : List UInt16 := []
  offer : UInt16 := 32768
  /-- Ports that are granted to nobody, and what the system says to whoever asks for one. -/
  reserved : List (UInt16 × SystemError) := []
  reserved_lt : ∀ r ∈ reserved, r.1 < 1024 := by exact nofun
  deriving DecidableEq, Repr

namespace Network

/-- Listens at a port and answers the port that was taken. -/
def bind (net : Network) (port : UInt16) : Except SystemError UInt16 :=
  if port = 0 then .ok net.offer
  else
    match net.reserved.lookup port with
    | some cause => .error cause
    | none => if port ∈ net.held then .error .addressInUse else .ok port

/-- Listens at the configured port. -/
def listen (net : Network) (port : Int64) : Except StartupError UInt16 :=
  match Port.valid? port with
  | none => .error (.invalidPort port)
  | some p =>
    match net.bind p with
    | .ok taken => .ok taken
    | .error cause => .error (.bind (.anyAt p) cause)

/-- The first port from 32768 on that is not held; the last one if there is none. -/
def freePort (held : List UInt16) : UInt16 :=
  ((List.range 32768).map fun n => UInt16.ofNat (32768 + n)).find? (· ∉ held) |>.getD 65535

def ofHeld (held : List UInt16) : Network := { held, offer := freePort held }

end Network

/-- What a slot holds: its listener's port, if it is open, and the port it had last. -/
structure Slot where
  name : String
  isOpen : Bool
  port : UInt16
  deriving DecidableEq, Repr

/-- The slots in use. -/
structure Listeners where
  slots : List Slot := []
  deriving DecidableEq, Repr

/-- Which port to listen at: a given one, or the one that a slot remembers. -/
inductive PortChoice where
  | number (port : Int64)
  | sameAs (slot : String)
  deriving DecidableEq, Repr

namespace Listeners

def slot? (ls : Listeners) (name : String) : Option Slot := ls.slots.find? (·.name = name)

/-- The ports of the open slots. -/
def held (ls : Listeners) : List UInt16 := (ls.slots.filter (·.isOpen)).map (·.port)

def put (ls : Listeners) (slot : Slot) : Listeners :=
  ⟨slot :: ls.slots.filter (·.name ≠ slot.name)⟩

/-- The port that is asked for, unless the slot named has never had one. -/
def port? (ls : Listeners) : PortChoice → Option Int64
  | .number p => some p
  | .sameAs name => (ls.slot? name).map fun s => Port.ofDefault s.port

/-- Listens on a network and keeps the listener in the slot, if one is named; else it is closed again. -/
def acquireOn (ls : Listeners) (net : Network) (port : Int64) (slot : Option String) :
    Except StartupError UInt16 × Listeners :=
  match net.listen port with
  | .error e => (.error e, ls)
  | .ok taken =>
    match slot with
    | none => (.ok taken, ls)
    | some name => (.ok taken, ls.put ⟨name, true, taken⟩)

/-- Listens where nothing is held but the ports of the open slots; `offer` is what the system offers for
port zero. -/
def acquire (ls : Listeners) (offer : UInt16) (port : Int64) (slot : Option String) :
    Except StartupError UInt16 × Listeners :=
  ls.acquireOn { held := ls.held, offer } port slot

/-- Closes the listener of a slot and answers whether it was open. -/
def close (ls : Listeners) (name : String) : Bool × Listeners :=
  match ls.slot? name with
  | none => (false, ls)
  | some s => (s.isOpen, ls.put { s with isOpen := false })

end Listeners

end Menagerie
