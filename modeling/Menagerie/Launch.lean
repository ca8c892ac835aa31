import Menagerie.CommandLine.Reader
import Menagerie.Journal.Logging

/-! The whole program. It reads its command line, begins logging, takes its port from the environment and
starts the server; each of these can end it, and what comes later then has no effect. -/

namespace Menagerie

/-- How a run of the program goes on once it has started. -/
inductive Ending where
  | exited (code : Nat)
  | aborted
  | serving (s : Serving)

structure Run where
  stdout : String := ""
  /-- What is written to the error stream outside the log. -/
  complaint : String := ""
  logging : Option Logging := none
  /-- What happens once logging has begun, whether the filter lets it through or not. -/
  entries : List Journal.Entry := []
  /-- The start of the server, if it came to it. -/
  start : Option StartReport := none
  ending : Ending

namespace Run

def stderr (r : Run) (time : String) : String :=
  r.complaint ++ r.logging.elim "" fun l => l.write time r.entries

/-- The run that a command line ends. -/
def ofStop (program : String) (env : Environment) (s : CommandLine.Stop) : Run :=
  let message := s.written program env
  let ending := Ending.exited s.exitCode
  if s.toStderr then { complaint := message, ending } else { stdout := message, ending }

/-- The run in which logging does not begin. -/
def ofLogFault : LogFault → Run
  | .invalidFilter .offBoundary => { ending := .aborted }
  | f => { complaint := "Error: " ++ f.message ++ "\n", ending := .exited 1 }

/-- The run in which the server is started. -/
def ofStart (logging : Logging) (announced : List Journal.Entry) (settings : ServerSettings)
    (r : StartReport) : Run :=
  let entries := announced ++ r.entries settings
  match r.result with
  | .ok s => { logging, entries, start := r, ending := .serving s }
  | .error (.failed e) =>
    { logging, entries := entries ++ [e.entry], start := r, ending := .exited 1 }
  | .error .clash => { logging, entries, start := r, ending := .aborted }

end Run

/-- Runs the program; the first argument is the path that it was called by. -/
def launch (arguments : List Text.Raw) (env : Environment) (net : Network) : Run :=
  match CommandLine.read arguments.tail env with
  | .error stop => Run.ofStop (CommandLine.programName arguments.head?) env stop
  | .ok line =>
    match Logging.ofSettings line.logSettings env with
    | .error f => Run.ofLogFault f
    | .ok logging =>
      let settings := ServerSettings.ofEnvironment env
      Run.ofStart logging [line.logSettings.entry, settings.entry] settings
        (start net settings Registration.standard)

end Menagerie
