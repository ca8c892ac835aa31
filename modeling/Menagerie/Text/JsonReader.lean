/-! JSON texts read as values. Numbers and truth values are kept as they are written, and the members of an
object in order. Between the parts of a value no blanks are read. -/

namespace Menagerie.Text

inductive Json where
  | text (s : String)
  /-- A number or a truth value. -/
  | word (s : String)
  | list (values : List Json)
  | object (members : List (String × Json))

namespace Json

/-- The first member of an object with a name. -/
def member? (name : String) : Json → Option Json
  | object members => (members.find? (·.1 = name)).map (·.2)
  | _ => none

/-- The text at the end of a path of names. -/
def textAt? : List String → Json → Option String
  | [], text s => some s
  | [], _ => none
  | name :: path, v => (v.member? name).bind (textAt? path)

end Json

namespace JsonReader

/-- Reads a value at the front of some characters, and gives those behind it too. -/
abbrev Reader (α : Type) := List Char → Option (α × List Char)

def digit? (c : Char) : Option Nat :=
  if '0' ≤ c ∧ c ≤ '9' then some (c.toNat - 48)
  else if 'a' ≤ c ∧ c ≤ 'f' then some (c.toNat - 87)
  else if 'A' ≤ c ∧ c ≤ 'F' then some (c.toNat - 55)
  else none

/-- The character whose code point these hexadecimal digits are. -/
def codePoint? (digits : List Char) : Option Char :=
  match digits.mapM digit? with
  | none => none
  | some ns =>
    let n := ns.foldl (16 * · + ·) 0
    if n.isValidChar then some (Char.ofNat n) else none

/-- What a backslash in front of a character stands for. -/
def escaped? (c : Char) : Option Char :=
  match c with
  | '"' => some '"'
  | '\\' => some '\\'
  | '/' => some '/'
  | 'n' => some '\n'
  | 'r' => some '\r'
  | 't' => some '\t'
  | 'b' => some '\x08'
  | 'f' => some '\x0c'
  | _ => none

/-- A character behind a backslash. -/
def readEscaped : Reader Char
  | 'u' :: a :: b :: c :: d :: rest => (codePoint? [a, b, c, d]).map (·, rest)
  | c :: rest => (escaped? c).map (·, rest)
  | [] => none

/-- A character of a text; control characters must be escaped. -/
def readCharacter : Reader Char
  | [] => none
  | c :: rest =>
    if c = '\\' then readEscaped rest
    else if c.toNat < 0x20 then none
    else some (c, rest)

/-- Characters up to a quote. Each takes some of the input, so `bound` is its length. -/
def readCharacters : Nat → Reader (List Char)
  | 0, _ => none
  | bound + 1, cs =>
    if cs.head? = some '"' then some ([], cs.tail)
    else
      match readCharacter cs with
      | none => none
      | some (c, rest) => (readCharacters bound rest).map fun (more, rest) => (c :: more, rest)

def readText : Reader String
  | '"' :: rest => (readCharacters rest.length rest).map fun (cs, rest) => (String.ofList cs, rest)
  | _ => none

/-- Items between commas, up to the sign that closes them. -/
def readItems {α : Type} (close : Char) (read : Reader α) : Nat → Reader (List α)
  | 0, _ => none
  | bound + 1, cs =>
    match read cs with
    | some (a, c :: rest) =>
      if c = close then some ([a], rest)
      else if c = ',' then (readItems close read bound rest).map fun (as, rest) => (a :: as, rest)
      else none
    | _ => none

/-- Items between commas, or nothing, up to the sign that closes them. -/
def readMany {α : Type} (close : Char) (read : Reader α) : Reader (List α) := fun cs =>
  if cs.head? = some close then some ([], cs.tail) else readItems close read cs.length cs

/-- A name, a colon and a value. -/
def readMember {α : Type} (read : Reader α) : Reader (String × α) := fun cs =>
  match readText cs with
  | some (name, ':' :: rest) => (read rest).map fun (a, rest) => ((name, a), rest)
  | _ => none

/-- What can follow a value inside another one. -/
def isEnd (c : Char) : Bool := c == ',' || c == ']' || c == '\x7d'

def readWord : Reader String := fun cs =>
  let word := cs.takeWhile fun c => !isEnd c
  if word.isEmpty then none else some (String.ofList word, cs.drop word.length)

/-- A value that nests less deep than `depth`. -/
def readValue : Nat → Reader Json
  | 0, _ => none
  | depth + 1, cs =>
    match cs with
    | '"' :: _ => (readText cs).map fun (s, rest) => (.text s, rest)
    | '[' :: rest => (readMany ']' (readValue depth) rest).map fun (vs, rest) => (.list vs, rest)
    | '\x7b' :: rest =>
      (readMany '\x7d' (readMember (readValue depth)) rest).map fun (ms, rest) => (.object ms, rest)
    | _ => (readWord cs).map fun (s, rest) => (.word s, rest)

/-- Values nest less deep than this. -/
def nestingLimit : Nat := 128

/-- Reads a value and nothing behind it. -/
def read (cs : List Char) : Option Json :=
  match readValue nestingLimit cs with
  | some (v, []) => some v
  | _ => none

/-- The lines of a text, each up to its end. -/
def lines : List Char → List (List Char)
  | [] => []
  | c :: rest =>
    if c = '\n' then [] :: lines rest
    else
      match lines rest with
      | [] => [[c]]
      | line :: others => (c :: line) :: others

/-- One value a line. -/
def readLines (s : String) : Option (List Json) := (lines s.toList).mapM read

end JsonReader

end Menagerie.Text
