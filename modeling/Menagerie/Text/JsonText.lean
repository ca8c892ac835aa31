import Menagerie.Text.Quoted

/-! Values as JSON texts. Quotes, backslashes and control characters of a text are escaped, all other
characters stand for themselves. -/

namespace Menagerie.Text.JsonText

/-- A character inside a JSON text. -/
def escape (c : Char) : String :=
  match c with
  | '"' => "\\\""
  | '\\' => "\\\\"
  | '\n' => "\\n"
  | '\r' => "\\r"
  | '\t' => "\\t"
  | '\x08' => "\\b"
  | '\x0c' => "\\f"
  | c =>
    if c.toNat < 0x20 then
      "\\u00" ++ (if c.toNat < 0x10 then "0" else "") ++ hexadecimal c.toNat
    else c.toString

def text (s : String) : String := "\"" ++ String.join (s.toList.map escape) ++ "\""

/-- An object of named values that are JSON texts already. -/
def object (fields : List (String × String)) : String :=
  "\x7b" ++ ",".intercalate (fields.map fun f => text f.1 ++ ":" ++ f.2) ++ "\x7d"

def list (values : List String) : String := "[" ++ ",".intercalate values ++ "]"

end Menagerie.Text.JsonText
