import Menagerie.Text.Quoted

/-! Records as texts: a name and the fields in braces. -/

namespace Menagerie.Text

def showRecord (name : String) (fields : List (String × String)) : String :=
  if fields.isEmpty then name
  else name ++ " \x7b " ++ ", ".intercalate (fields.map fun f => f.1 ++ ": " ++ f.2) ++ " \x7d"

def showOption (shown : Option String) : String :=
  match shown with
  | none => "None"
  | some s => "Some(" ++ s ++ ")"

end Menagerie.Text
