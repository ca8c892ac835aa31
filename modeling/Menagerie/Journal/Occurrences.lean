import Menagerie.Journal
import Menagerie.LogSettings
import Menagerie.Server.Start
import Menagerie.Store

/-! What the server logs about its work: the requests that its store answers, the services that it
registers, that it listens, and why it does not come up. -/

namespace Menagerie

open Journal

namespace Journal.Target

def requests : String := "petstore_grpc::petstore"
def startup : String := "petstore_grpc::bootstrap"
def logging : String := "petstore_grpc::telemetry"
def program : String := "petstore_server"

end Journal.Target

/-- The span in which a request is answered. -/
def PetRequest.span : PetRequest → Span
  | .get r => ⟨"get_pet", Target.requests, [("method", .quoted "GetPet"), ("pet_id", .bare r.id)]⟩
  | .put _ => ⟨"put_pet", Target.requests, [("method", .quoted "PutPet")]⟩
  | .delete r =>
    ⟨"delete_pet", Target.requests, [("method", .quoted "DeletePet"), ("pet_id", .bare r.id)]⟩

/-- The event of a request; a put under a blank name has none, and `id` is the id of a pet that is
put. -/
def PetRequest.event? (id : String) : PetRequest → Option Event
  | .get _ => some { level := .debug, target := Target.requests, message := "GetPet" }
  | .put r =>
    if r.isNamed then some { level := .debug, target := Target.requests, message := "PutPet",
                             values := [("pet_id", .bare id), ("name", .bare r.name)] }
    else none
  | .delete _ => some { level := .debug, target := Target.requests, message := "DeletePet" }

def PetRequest.entries (id : String) (r : PetRequest) : List Entry :=
  ((r.event? id).map fun e => ⟨[r.span], e⟩).toList

/-- A service was registered. -/
def registeredEvent (name : String) : Event :=
  { level := .debug, target := Target.startup, message := "Registered service",
    values := [("service", .quoted name)] }

/-- The entries of a composition inside spans. -/
def Composition.entries (spans : List Span) (c : Composition) : List Entry :=
  c.registered.map fun name => ⟨spans, registeredEvent name⟩

/-- The server listens. -/
def Serving.event (s : Serving) : Event :=
  let address := (SocketAddress.anyAt s.port).print
  { level := .info, target := Target.startup, message := "server listening at " ++ address,
    values := [("addr", .bare address), ("services", .bare (Text.quoteAll s.server.names))] }

/-- The span around a start. -/
def ServerSettings.span (s : ServerSettings) : Span :=
  ⟨"run", Target.startup, [("port", .number s.port.toInt)]⟩

/-- The entries of a start. -/
def StartReport.entries (settings : ServerSettings) (r : StartReport) : List Entry :=
  let spans := [settings.span]
  r.composition.elim [] (Composition.entries spans)
    ++ match r.result with
      | .ok serving => [⟨spans, serving.event⟩]
      | .error _ => []

/-- Logging begins. -/
def LogSettings.entry (s : LogSettings) : Entry where
  event := { level := .info, target := Target.logging, message := "Telemetry initialized",
             values := [("service_name", .bare s.serviceName),
               ("service_version", .bare s.serviceVersion), ("json_logs", .flag s.jsonLogs)] }

/-- The program is about to start the server. -/
def ServerSettings.entry (s : ServerSettings) : Entry where
  event := { level := .info, target := Target.program, message := "Initializing server...",
             values := [("port", .number s.port.toInt)] }

/-- The program gives up. -/
def StartupError.entry (e : StartupError) : Entry where
  event := { level := .error, target := Target.program, message := e.message }

end Menagerie
