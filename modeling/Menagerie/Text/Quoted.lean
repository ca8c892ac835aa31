import Menagerie.Text.Letter

/-! Quoted texts. Quotes and backslashes get a backslash, line ends and tabs their short names, and
whatever does not show by itself its code point in hexadecimal. -/

namespace Menagerie.Text

def hexadecimal (n : Nat) : String := String.ofList (Nat.toDigits 16 n)

/-- A character inside quotes. -/
def escape (c : Char) : String :=
  match c with
  | '\x00' => "\\0"
  | '\t' => "\\t"
  | '\r' => "\\r"
  | '\n' => "\\n"
  | '"' => "\\\""
  | '\\' => "\\\\"
  | _ =>
    if isExtending c || !isPrintable c then "\\u\x7b" ++ hexadecimal c.toNat ++ "\x7d"
    else c.toString

def quote (s : String) : String := "\"" ++ String.join (s.toList.map escape) ++ "\""

/-- A list of quoted texts in brackets. -/
def quoteAll (ss : List String) : String := "[" ++ ", ".intercalate (ss.map quote) ++ "]"

end Menagerie.Text
