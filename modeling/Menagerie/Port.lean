import Menagerie.Decimal.Integer
import Menagerie.Environment
import Menagerie.Text.Record

/-! The configured port. It is any signed 64-bit number, so that a port out of range is reported as it
was given; text that is no such number falls back to the default. -/

namespace Menagerie

namespace Port

/-- The port when none is configured. -/
def default : UInt16 := 50051

def ofDefault (port : UInt16) : Int64 := Int64.ofNat port.toNat

/-- The port a text asks for. -/
def resolve (raw : Option String) (fallback : UInt16) : Int64 :=
  match raw with
  | none => ofDefault fallback
  | some s => (Decimal.int64? s.toList).getD (ofDefault fallback)

/-- The variable that holds the port. -/
def variableName : String := "GRPC_PORT"

/-- The port as a number that can be listened on. -/
def valid? (port : Int64) : Option UInt16 :=
  if 0 ≤ port.toInt ∧ port.toInt < 65536 then some (UInt16.ofNat port.toInt.toNat) else none

end Port

/-- What the server is configured with. -/
structure ServerSettings where
  port : Int64 := Port.ofDefault Port.default
  deriving DecidableEq

namespace ServerSettings

/-- The settings under a look-up of variables. -/
def ofLookup (lookup : String → Option String) : ServerSettings :=
  ⟨Port.resolve (lookup Port.variableName) Port.default⟩

/-- The settings under an environment; a value that is no text counts as unset. -/
def ofEnvironment (env : Environment) : ServerSettings := ofLookup env.text?

def display (s : ServerSettings) : String :=
  Text.showRecord "ServerConfig" [("port", toString s.port.toInt)]

end ServerSettings

end Menagerie
