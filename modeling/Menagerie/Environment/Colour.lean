import Menagerie.Environment

/-! Whether the program writes in colours to streams that are no terminals. The log has colours unless
a variable asks for none, messages only if another one asks for them besides. -/

namespace Menagerie

/-- The variable that asks for no colours. -/
def noColourVariable : String := "NO_COLOR"

/-- The variable that asks for colours wherever a message is written. -/
def forcedColourVariable : String := "CLICOLOR_FORCE"

namespace Environment

/-- Octets that are no text do not count. -/
def coloursLog (env : Environment) : Bool := (env.text? noColourVariable).getD "" == ""

def coloursMessages (env : Environment) : Bool :=
  env.isFilled forcedColourVariable && !env.isFilled noColourVariable

end Environment

end Menagerie
