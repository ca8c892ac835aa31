import Menagerie.Text.Record

/-! What a run logs: under which name and version it announces itself, through which filter, and in
which format. -/

namespace Menagerie

structure LogSettings where
  serviceName : String := "petstore-grpc"
  serviceVersion : String := "0.1.0"
  logLevel : String := "info"
  jsonLogs : Bool := false
  deriving DecidableEq, Repr

/-- One setting that departs from the default. -/
inductive LogChoice where
  | serviceName (s : String)
  | serviceVersion (s : String)
  | logLevel (s : String)
  | jsonLogs (b : Bool)

namespace LogSettings

def choose (s : LogSettings) : LogChoice → LogSettings
  | .serviceName v => { s with serviceName := v }
  | .serviceVersion v => { s with serviceVersion := v }
  | .logLevel v => { s with logLevel := v }
  | .jsonLogs v => { s with jsonLogs := v }

/-- The settings after choices made in order; the last choice of a setting counts. -/
def ofChoices (choices : List LogChoice) : LogSettings := choices.foldl choose {}

def display (s : LogSettings) : String :=
  Text.showRecord "TelemetryConfig" [("service_name", Text.quote s.serviceName),
    ("service_version", Text.quote s.serviceVersion), ("log_level", Text.quote s.logLevel),
    ("json_logs", toString s.jsonLogs)]

end LogSettings

end Menagerie
