import Menagerie.Wire.Message

/-! Health of services. The server as a whole, which has the empty name, serves; of any other name
nothing is known. -/

namespace Menagerie

structure HealthCheckRequest where
  service : String := ""
  deriving DecidableEq, Repr

inductive HealthStatus where
  | unknown | serving | notServing | serviceUnknown
  deriving DecidableEq, Repr

structure HealthCheckResponse where
  status : Int32 := 0
  deriving DecidableEq, Repr

namespace HealthStatus

def number : HealthStatus → Int32
  | unknown => 0
  | serving => 1
  | notServing => 2
  | serviceUnknown => 3

def label : HealthStatus → String
  | unknown => "UNKNOWN"
  | serving => "SERVING"
  | notServing => "NOT_SERVING"
  | serviceUnknown => "SERVICE_UNKNOWN"

def all : List HealthStatus := [unknown, serving, notServing, serviceUnknown]

/-- The status with a number, the unknown one if the number has none. -/
def ofNumber (n : Int32) : HealthStatus := (all.find? (·.number = n)).getD unknown

end HealthStatus

namespace HealthCheckRequest

/-- The status of the service that is asked about, if it is known. -/
def status? (r : HealthCheckRequest) : Option HealthStatus :=
  if r.service = "" then some .serving else none

end HealthCheckRequest

open Wire

instance : Message HealthCheckRequest where
  blank := {}
  encode m := writeText 1 m.service
  mergeField depth m tag t bs :=
    match tag with
    | 1 => setField "HealthCheckRequest" "service" (fun s => { m with service := s }) (readText t bs)
    | tag => ignoreField depth m tag t bs

instance : Message HealthCheckResponse where
  blank := {}
  encode m := writeInt32 1 m.status
  mergeField depth m tag t bs :=
    match tag with
    | 1 => setField "HealthCheckResponse" "status" (fun n => { m with status := n }) (readInt32 t bs)
    | tag => ignoreField depth m tag t bs

end Menagerie
