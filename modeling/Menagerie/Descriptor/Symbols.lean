import Menagerie.Descriptor

/-! The full names in a file. A name is qualified by the package and by the messages around it; an
enumeration value is qualified by its enumeration. The first element that lacks a name, in the order
in which names are gathered, makes the file unusable. -/

namespace Menagerie.Descriptor

/-- A name behind the names around it. -/
def qualify (scope name : String) : String := if scope = "" then name else scope ++ "." ++ name

/-- The full name of an element, which needs a name. -/
def fullName (scope : String) (what : Element) (name : Option String) : Except SetFault String :=
  match name with
  | none => .error (.unnamed what)
  | some n => .ok (qualify scope n)

/-- The names that a list of elements gives, in order. -/
def gather {α : Type} (names : α → Except SetFault (List String)) : List α →
    Except SetFault (List String)
  | [] => .ok []
  | a :: rest => do return (← names a) ++ (← gather names rest)

def Enumeration.symbols (scope : String) (e : Enumeration) : Except SetFault (List String) := do
  let name ← fullName scope .enumeration e.name
  return name :: (← e.values.mapM fun v => fullName name .enumerationValue v.name)

namespace Message

mutual

/-- A message, then what is declared inside: messages, enumerations, fields and oneofs. -/
def symbols (scope : String) (m : Message) : Except SetFault (List String) :=
  match m with
  | ⟨name, nested, enums, fields, oneofs⟩ => do
    let name ← fullName scope .message name
    let inner ← symbolsAll name nested
    let enums ← gather (Enumeration.symbols name) enums
    let fields ← fields.mapM fun f => fullName name .field f.name
    let oneofs ← oneofs.mapM fun o => fullName name .oneof o.name
    return name :: (inner ++ enums ++ fields ++ oneofs)

def symbolsAll (scope : String) (ms : List Message) : Except SetFault (List String) :=
  match ms with
  | [] => .ok []
  | m :: rest => do return (← symbols scope m) ++ (← symbolsAll scope rest)

end

end Message

def Service.symbols (scope : String) (s : Service) : Except SetFault (List String) := do
  let name ← fullName scope .service s.name
  return name :: (← s.methods.mapM fun m => fullName name .method m.name)

namespace File

/-- The messages of a file, then its enumerations, then its services. -/
def symbols (f : File) : Except SetFault (List String) := do
  let messages ← Message.symbolsAll f.package f.messages
  let enums ← gather (Enumeration.symbols f.package) f.enums
  let services ← gather (Service.symbols f.package) f.services
  return messages ++ enums ++ services

/-- The full names of the services of a file that have one. -/
def serviceNames (f : File) : List String := f.services.filterMap fun s => s.name.map (qualify f.package)

end File

end Menagerie.Descriptor
