import Menagerie.Text.Octets

/-! The environment of the program: named values, each a text or octets that are none. -/

namespace Menagerie

/-- The variables that are set; the first entry for a name counts. -/
structure Environment where
  entries : List (String × Text.Raw) := []

namespace Environment

def get? (env : Environment) (name : String) : Option Text.Raw :=
  (env.entries.find? (·.1 = name)).map (·.2)

/-- Whether a variable is set to something, be it a text or not. -/
def isFilled (env : Environment) (name : String) : Bool :=
  (env.get? name).any fun v => !v.octets.isEmpty

/-- The value of a variable that is set to a text. -/
def text? (env : Environment) (name : String) : Option String := (env.get? name).bind Text.Raw.text?

end Environment

end Menagerie
