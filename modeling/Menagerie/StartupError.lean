import Menagerie.Address.Printer
import Menagerie.Descriptor.SetFault
import Menagerie.SystemError
import Menagerie.Uri

/-! Why the server does not come up. Every such error ends the process. -/

namespace Menagerie

inductive StartupError where
  /-- The address could not be listened on. -/
  | bind (address : SocketAddress) (cause : SystemError)
  /-- The configured number is no port. -/
  | invalidPort (port : Int64)
  /-- The reflection service could not be built. -/
  | reflection (fault : Descriptor.SetFault)
  /-- The transport failed over an address. -/
  | serve (fault : UriFault)
  deriving DecidableEq, Repr

namespace StartupError

/-- Whether listening failed, so that no service was registered. -/
def isBind : StartupError → Bool
  | bind .. => true
  | invalidPort _ => true
  | _ => false

/-- What the transport says when an address is at fault. -/
def transportMessage : String := "invalid URI"

def message : StartupError → String
  | bind address cause => s!"failed to listen on {address.print}: {cause.message}"
  | invalidPort port => s!"failed to listen: invalid port {port.toInt}"
  | reflection fault => s!"failed to build reflection service: {fault.message}"
  | serve _ => s!"failed to serve: {transportMessage}"

/-- The texts of the errors underneath, the outermost first. -/
def causes : StartupError → List String
  | bind _ cause => [cause.message]
  | invalidPort _ => []
  | reflection fault => [fault.message]
  | serve fault => [transportMessage, fault.message]

/-- The error in full, for those that listening gives. -/
def display? : StartupError → Option String
  | bind address cause =>
    some (Text.showRecord "Bind" [("addr", address.print), ("source", cause.display)])
  | invalidPort port => some s!"InvalidPort({port.toInt})"
  | _ => none

end StartupError

end Menagerie
