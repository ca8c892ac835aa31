import Menagerie.Listeners
import Menagerie.Server.Composition

/-! Starting a server: first it listens, then it is composed, and only then it serves. Nothing is
registered unless listening succeeded, and a server that is not composed closes its listener. -/

namespace Menagerie

/-- A server that waits for calls at a port. -/
structure Serving where
  port : UInt16
  server : ComposedServer

structure StartReport where
  /-- The composition, if it came to it. -/
  composition : Option Composition
  result : Except Obstacle Serving
  /-- The ports held afterwards. -/
  held : List UInt16

namespace StartReport

/-- The registrations that ran, in order. -/
def tried (r : StartReport) : List Registration := r.composition.elim [] (·.tried)

def ran (r : StartReport) : Nat := r.composition.elim 0 Composition.ran

end StartReport

/-- Starts a server on a network. -/
def start (net : Network) (settings : ServerSettings) (registrations : List Registration) :
    StartReport :=
  match net.listen settings.port with
  | .error e => ⟨none, .error (.failed e), net.held⟩
  | .ok port =>
    let composition := compose registrations
    match composition.result with
    | .error o => ⟨some composition, .error o, net.held⟩
    | .ok server => ⟨some composition, .ok ⟨port, server⟩, port :: net.held⟩

/-- Settings and registrations of a server that is not started yet. -/
structure ServerPlan where
  settings : ServerSettings
  registrations : List Registration := Registration.standard

def ServerPlan.display (p : ServerPlan) : String :=
  Text.showRecord "Bootstrapper"
    [("config", p.settings.display), ("registrations", toString p.registrations.length)]

end Menagerie
