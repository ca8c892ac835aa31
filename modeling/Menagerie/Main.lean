import Menagerie.Launch
import Std.Time

/-! The program itself: it takes its arguments and its environment from the system, writes what a run
writes, and ends with the code of the run. Carrying calls over a network is not its business, so a run
that serves lasts as long as its input. -/

namespace Menagerie

/-- Every variable that a run looks at. -/
def variableNames : List String :=
  [Port.variableName, LogFilter.variableName, noColourVariable, forcedColourVariable]
    ++ CommandLine.Choice.all.map CommandLine.Choice.variableName

/-- The variables of a run, as they are set. -/
def currentEnvironment : IO Environment := do
  let values ← variableNames.mapM fun name => return (name, ← IO.getEnv name)
  return ⟨values.filterMap fun (name, value) => value.map fun v => (name, .text v)⟩

/-- The time in the log. -/
def timeStamp : IO String := do
  let now := Std.Time.DateTime.ofTimestamp (← Std.Time.Timestamp.now) .UTC
  return now.format "uuuu-MM-dd'T'HH:mm:ss.SSSSSS'Z'"

/-- Waits for the end of the input. -/
partial def awaitEnd (input : IO.FS.Stream) : IO Unit := do
  if (← input.getLine).isEmpty then return
  awaitEnd input

/-- Writes what a run writes and gives the code that it ends with. -/
def Run.perform (r : Run) : IO UInt32 := do
  (← IO.getStdout).putStr r.stdout
  (← IO.getStderr).putStr (r.stderr (← timeStamp))
  match r.ending with
  | .exited code => return UInt32.ofNat code
  | .aborted => return 101
  | .serving _ =>
    awaitEnd (← IO.getStdin)
    return 0

end Menagerie

def main (arguments : List String) : IO UInt32 := do
  let given := (Menagerie.CommandLine.defaultProgram :: arguments).map Menagerie.Text.Raw.text
  let run := Menagerie.launch given (← Menagerie.currentEnvironment) (.ofHeld [])
  run.perform
