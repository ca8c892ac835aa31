import Menagerie.LogSettings
import Menagerie.Text.Terminal

/-! What the command line decides: the filter and the format of the log. An option that is not on the
line has the value of a variable, or else a value of its own. -/

namespace Menagerie

inductive LogFormat where
  | pretty | json
  deriving DecidableEq, Repr

namespace LogFormat

def all : List LogFormat := [pretty, json]

def name : LogFormat → String
  | pretty => "pretty"
  | json => "json"

def ofName? (s : String) : Option LogFormat := all.find? (·.name = s)

def display : LogFormat → String
  | pretty => "Pretty"
  | json => "Json"

end LogFormat

structure CommandLine where
  logLevel : String
  logFormat : LogFormat
  deriving DecidableEq, Repr

namespace CommandLine

def display (c : CommandLine) : String :=
  Text.showRecord "Cli" [("log_level", Text.quote c.logLevel), ("log_format", c.logFormat.display)]

/-- The log settings of the program under a command line. -/
def logSettings (c : CommandLine) : LogSettings :=
  .ofChoices [.serviceName "petstore-server", .logLevel c.logLevel, .jsonLogs (c.logFormat = .json)]

/-- The options that have a value. -/
inductive Choice where
  | logLevel | logFormat
  deriving DecidableEq, Repr

namespace Choice

def all : List Choice := [logLevel, logFormat]

def name : Choice → String
  | logLevel => "log-level"
  | logFormat => "log-format"

/-- The option on a command line. -/
def flag (c : Choice) : String := "--" ++ c.name

/-- The name of its value. -/
def placeholder : Choice → String
  | logLevel => "<LOG_LEVEL>"
  | logFormat => "<LOG_FORMAT>"

/-- The option with the name of its value. -/
def synopsis (c : Choice) : String := c.flag ++ " " ++ c.placeholder

/-- The synopsis with an option that stands out. -/
def painted (c : Choice) : String := Text.Style.literal.paint c.flag ++ " " ++ c.placeholder

def variableName : Choice → String
  | logLevel => "PETSTORE_LOG"
  | logFormat => "PETSTORE_LOG_FORMAT"

/-- The value if nothing else gives one. -/
def fallback : Choice → String
  | logLevel => "info"
  | logFormat => LogFormat.pretty.name

end Choice

/-- The options that ask for a text. -/
inductive Inquiry where
  | help | version
  deriving DecidableEq, Repr

def Inquiry.name : Inquiry → String
  | help => "help"
  | version => "version"

/-- The option on a command line. -/
def Inquiry.flag (i : Inquiry) : String := "--" ++ i.name

/-- All options. -/
inductive LongOption where
  | choice (c : Choice)
  | inquiry (i : Inquiry)
  deriving DecidableEq, Repr

namespace LongOption

def all : List LongOption :=
  [.choice .logLevel, .choice .logFormat, .inquiry .help, .inquiry .version]

def name : LongOption → String
  | choice c => c.name
  | inquiry i => i.name

def ofName? (s : String) : Option LongOption := all.find? (·.name = s)

/-- The option, standing out, with the name of its value if it has one. -/
def painted : LongOption → String
  | choice c => c.painted
  | inquiry i => Text.Style.literal.paint i.flag

end LongOption

end CommandLine

end Menagerie
