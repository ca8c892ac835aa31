import Menagerie.CommandLine
import Menagerie.Environment.Colour
import Menagerie.Text.Similarity
import Menagerie.Text.Terminal

/-! What ends the program at its command line: a text that was asked for, or an argument that is
rejected. -/

namespace Menagerie.CommandLine

inductive Stop where
  /-- The help was asked for, in full or in short. -/
  | help (full : Bool)
  | version
  /-- No option has this name; `used` are the options so far. -/
  | unknownOption (name : String) (tip : Option LongOption) (used : List LongOption)
  | unknownLetter (shown : String)
  | unexpected (argument : String)
  | missingValue (c : Choice)
  | unknownFormat (value : String)
  | repeated (c : Choice)
  /-- An option that has no value was given one, behind options that were `settled` or none. -/
  | surplusValue (i : Inquiry) (value : String) (settled : Bool)
  | notText
  deriving DecidableEq, Repr

open Text.Style

namespace Stop

def isInquiry : Stop → Bool
  | help _ => true
  | version => true
  | _ => false

/-- Zero if a text was asked for. -/
def exitCode (s : Stop) : Nat := if s.isInquiry then 0 else 2

def toStderr (s : Stop) : Bool := !s.isInquiry

/-- A line that says how the program is used. -/
def usageLine (program arguments : String) : String :=
  heading.paint "Usage:" ++ " " ++ literal.paint program ++ " " ++ arguments

/-- How the program is used with some options. -/
def usage (program : String) (used : List LongOption) : String :=
  usageLine program
    (if used.isEmpty then "[OPTIONS]" else " ".intercalate (used.map LongOption.painted))

/-- How the program is used to ask for a text; behind settled options, these are all shown as a choice. -/
def inquiryUsage (program : String) (i : Inquiry) (settled : Bool) : String :=
  let choices := "|".intercalate (Choice.all.map Choice.synopsis)
  usageLine program (literal.paint i.flag ++ if settled then s!" <{choices}>" else "")

def possibleFormats : String :=
  let names := LogFormat.all.map fun f => valid.paint f.name
  "\n  [possible values: " ++ ", ".intercalate names ++ "]"

/-- The value of a variable as the help shows it; its lines are indented. -/
def shownVariable (env : Environment) (indent : Nat) (c : Choice) : String :=
  let value := ((env.get? c.variableName).map Text.Raw.shown).getD ""
  let margin := "\n" ++ String.ofList (List.replicate indent ' ')
  "[env: " ++ c.variableName ++ "=" ++ margin.intercalate (value.splitOn "\n") ++ "]"

/-- An option of one letter and its long name. -/
def paintedPair (letter : Char) (i : Inquiry) : String :=
  literal.paint (String.ofList ['-', letter]) ++ ", " ++ literal.paint i.flag

def fullHelp (program : String) (env : Environment) : String :=
  "Serves pet.v1.PetStoreService, grpc.health.v1.Health and grpc.reflection.v1.ServerReflection on "
    ++ "0.0.0.0:$GRPC_PORT (default 50051).\n\n" ++ usage program [] ++ "\n\n"
    ++ heading.paint "Options:" ++ "\n      " ++ Choice.logLevel.painted
    ++ "\n          Log filter directive (overridden by RUST_LOG)\n          \n          "
    ++ shownVariable env 10 .logLevel ++ "\n          [default: info]\n\n      "
    ++ Choice.logFormat.painted ++ "\n          Log output format\n\n          Possible values:\n"
    ++ "          - " ++ literal.paint "pretty" ++ ": Human-readable output\n"
    ++ "          - " ++ literal.paint "json" ++ ":   One JSON object per line\n          \n          "
    ++ shownVariable env 10 .logFormat ++ "\n          [default: pretty]\n\n  "
    ++ paintedPair 'h' .help ++ "\n          Print help (see a summary with '-h')\n\n  "
    ++ paintedPair 'V' .version ++ "\n          Print version\n"

def shortHelp (program : String) (env : Environment) : String :=
  "PetStore gRPC server with health checking and server reflection\n\n" ++ usage program []
    ++ "\n\n" ++ heading.paint "Options:" ++ "\n      " ++ Choice.logLevel.painted
    ++ "    Log filter directive (overridden by RUST_LOG) " ++ shownVariable env 33 .logLevel
    ++ " [default: info]\n      " ++ Choice.logFormat.painted ++ "  Log output format "
    ++ shownVariable env 33 .logFormat ++ " [default: pretty] [possible values: pretty, json]\n  "
    ++ paintedPair 'h' .help ++ "                     Print help (see more with '--help')\n  "
    ++ paintedPair 'V' .version ++ "                  Print version\n"

def versionText : String := "petstore-server 0.1.0\n"

/-- A complaint with a hint where to find help. -/
def complain (parts : List String) : String :=
  let hint := s!"For more information, try '{literal.paint Inquiry.help.flag}'.\n"
  failure.paint "error:" ++ " " ++ "\n\n".intercalate (parts ++ [hint])

/-- A hint at what may have been meant. -/
def tipLine (what suggestion : String) : String :=
  "  " ++ valid.paint "tip:" ++ s!" a similar {what} exists: '{valid.paint suggestion}'"

/-- A complaint about an argument that nothing expects. -/
def complainUnexpected (argument : String) (parts : List String) : String :=
  complain (s!"unexpected argument '{invalid.paint argument}' found" :: parts)

/-- The text that is shown before the program ends, as a terminal gets it. -/
def painted (program : String) (env : Environment) : Stop → String
  | help full => if full then fullHelp program env else shortHelp program env
  | version => versionText
  | unknownOption name tip used =>
    complainUnexpected ("--" ++ name)
      ((tip.map fun t => tipLine "argument" ("--" ++ t.name)).toList ++ [usage program used])
  | unknownLetter shown => complainUnexpected shown [usage program []]
  | unexpected argument => complainUnexpected argument [usage program []]
  | missingValue c =>
    complain [s!"a value is required for '{invalid.paint c.synopsis}' but none was supplied"
      ++ if c = .logFormat then possibleFormats else ""]
  | unknownFormat value =>
    let tip := Text.mostSimilar? value (LogFormat.all.map LogFormat.name)
    let option := literal.paint Choice.logFormat.synopsis
    complain (s!"invalid value '{invalid.paint value}' for '{option}'{possibleFormats}"
      :: (tip.map (tipLine "value")).toList)
  | repeated c =>
    complain [s!"the argument '{invalid.paint c.synopsis}' cannot be used multiple times",
      usage program []]
  | surplusValue i value settled =>
    let option := literal.paint i.flag
    complain [s!"unexpected value '{invalid.paint value}' for '{option}' found; no more were expected",
      inquiryUsage program i settled]
  | notText => complain ["invalid UTF-8 was detected in one or more arguments", usage program []]

/-- The text that is shown before the program ends, without what controls a terminal. -/
def message (program : String) (env : Environment) (s : Stop) : String :=
  Text.withoutControls false (s.painted program env)

/-- The text as it is written to a stream, painted only if the environment wants it. -/
def written (program : String) (env : Environment) (s : Stop) : String :=
  let text := s.painted program env
  if env.coloursMessages then text else Text.withoutControls true text

end Stop

end Menagerie.CommandLine
