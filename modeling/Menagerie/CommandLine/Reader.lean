import Menagerie.CommandLine.Stop

/-! Reading the command line. Arguments are read in order. An option waits for its value until the next
argument, and what it got is checked when the next option comes or the line ends; a rejected option that
still waits is overlooked if an unknown argument follows. Last come the variables of the options that
are not on the line. -/

namespace Menagerie.CommandLine

open Text (Raw)

/-- The options read so far with their values, in order, and the option that is not settled yet. -/
structure Progress where
  settled : List (Choice × Raw) := []
  pending : Option (Choice × Option Raw) := none

/-- What is wrong with the value of an option. -/
def valueFault? (c : Choice) (v : Raw) : Option Stop :=
  match c, v.text? with
  | .logLevel, some _ => none
  | .logLevel, none => some .notText
  | .logFormat, some "" => some (.missingValue .logFormat)
  | .logFormat, some s => if (LogFormat.ofName? s).isSome then none else some (.unknownFormat s)
  | .logFormat, none => some (.unknownFormat v.shown)

namespace Progress

def value? (p : Progress) (c : Choice) : Option Raw := (p.settled.find? (·.1 = c)).map (·.2)

/-- The options read so far. -/
def used (p : Progress) : List LongOption := p.settled.map fun s => .choice s.1

/-- Settles an option. It is forgotten if it was there before, and kept even if its value is wrong. -/
def settle (p : Progress) (c : Choice) (v : Raw) : Option Stop × Progress :=
  if (p.value? c).isSome then
    (some (.repeated c), { p with settled := p.settled.filter (·.1 ≠ c) })
  else (valueFault? c v, { p with settled := p.settled ++ [(c, v)] })

/-- Settles the option that waits. -/
def settlePending (p : Progress) : Option Stop × Progress :=
  let rest := { p with pending := none }
  match p.pending with
  | none => (none, rest)
  | some (c, none) => (some (.missingValue c), rest)
  | some (c, some v) => rest.settle c v

/-- The progress unless something is wrong. -/
def orStop : Option Stop × Progress → Except Stop Progress
  | (some s, _) => .error s
  | (none, p) => .ok p

end Progress

/-- An argument: two hyphens, an option with its name and maybe a value, letters behind one hyphen, or
anything else. -/
inductive Argument where
  | hyphens
  | long (name : Raw) (value : Option Raw)
  | letters (octets : List UInt8)
  | plain (value : Raw)

def equalsSign : UInt8 := 0x3d

def Argument.ofRaw (a : Raw) : Argument :=
  match a.octets with
  | 0x2d :: 0x2d :: [] => .hyphens
  | 0x2d :: 0x2d :: body =>
    let name := body.takeWhile (· != equalsSign)
    let value :=
      match body.drop name.length with
      | [] => none
      | _ :: rest => some (Raw.ofOctets rest)
    .long (Raw.ofOctets name) value
  | 0x2d :: b :: rest => .letters (b :: rest)
  | _ => .plain a

/-- What one letter asks for. -/
def ofLetter (c : Char) : Stop :=
  match c with
  | 'h' => .help false
  | 'V' => .version
  | c => .unknownLetter (String.ofList ['-', c])

/-- The first character of octets. -/
def firstChar? (bs : List UInt8) : Option Char :=
  [1, 2, 3, 4].findSome? fun n => (Text.text? (bs.take n)).bind fun s => s.toList.head?

/-- What letters behind a hyphen ask for; the first one decides. -/
def ofLetters (bs : List UInt8) : Stop :=
  match firstChar? bs with
  | some c => ofLetter c
  | none => .unknownLetter ("-" ++ Text.lossyText bs)

/-- An option that is not known, after what was settled before it. -/
def unknownOption (p : Progress) (name : String) : Stop :=
  let used := p.settlePending.2.used
  let tip := (Text.mostSimilar? name (LongOption.all.map LongOption.name)).bind LongOption.ofName?
  let missing := tip.toList.filter (!used.contains ·)
  .unknownOption name tip (used ++ missing)

/-- An option with its name and maybe a value. -/
def readLong (p : Progress) (name : Raw) (value : Option Raw) : Except Stop Progress :=
  match name.text?.bind LongOption.ofName?, value with
  | none, _ => .error (unknownOption p name.shown)
  | some (.choice c), some v => do
    let p ← Progress.orStop p.settlePending
    Progress.orStop (p.settle c v)
  | some (.choice c), none => do
    let p ← Progress.orStop p.settlePending
    .ok { p with pending := some (c, none) }
  | some (.inquiry i), some v => .error (.surplusValue i v.shown !p.settled.isEmpty)
  | some (.inquiry i), none => do
    let _ ← Progress.orStop p.settlePending
    match i with
    | .help => .error (.help true)
    | .version => .error .version

/-- Letters behind a hyphen. Letters that ask for a text settle what waits. -/
def readLetters (p : Progress) (bs : List UInt8) : Except Stop Progress := do
  let stop := ofLetters bs
  if stop.isInquiry then
    let _ ← Progress.orStop p.settlePending
    .error stop
  else .error stop

/-- Reads the rest of the arguments; behind two hyphens every argument is unexpected. -/
def readFrom (p : Progress) (trailing : Bool) : List Raw → Except Stop Progress
  | [] => Progress.orStop p.settlePending
  | a :: rest =>
    if trailing then .error (.unexpected a.shown)
    else
      match Argument.ofRaw a with
      | .hyphens => readFrom p true rest
      | .long name value =>
        match readLong p name value with
        | .ok p => readFrom p false rest
        | .error s => .error s
      | .letters bs =>
        match readLetters p bs with
        | .ok p => readFrom p false rest
        | .error s => .error s
      | .plain v =>
        match p.pending with
        | some (c, none) => readFrom { p with pending := some (c, some v) } false rest
        | _ => .error (.unexpected v.shown)

/-- The text of an option: from the line, else from its variable, else its own. -/
def effective (p : Progress) (env : Environment) (c : Choice) : Except Stop String :=
  match p.value? c with
  | some v => .ok (v.text?.getD c.fallback)
  | none =>
    match env.get? c.variableName with
    | none => .ok c.fallback
    | some v =>
      match valueFault? c v with
      | some s => .error s
      | none => .ok (v.text?.getD c.fallback)

/-- Reads the arguments that follow the name of the program. -/
def read (arguments : List Raw) (env : Environment) : Except Stop CommandLine := do
  let p ← readFrom {} false arguments
  let logLevel ← effective p env .logLevel
  let format ← effective p env .logFormat
  .ok ⟨logLevel, (LogFormat.ofName? format).getD .pretty⟩

/-! ## The name of the program -/

def slash : UInt8 := 0x2f

def dot : UInt8 := 0x2e

/-- The parts of a path between slashes. -/
def pathParts : List UInt8 → List (List UInt8)
  | [] => [[]]
  | b :: rest =>
    if b == slash then [] :: pathParts rest
    else
      match pathParts rest with
      | [] => [[b]]
      | part :: parts => (b :: part) :: parts

/-- The name of the program if the first argument gives none. -/
def defaultProgram : String := "petstore-server"

/-- The last part of the path that the program was called by. -/
def programName (path : Option Raw) : String :=
  let parts := (pathParts (path.elim [] Raw.octets)).filter fun p => !p.isEmpty && p != [dot]
  match parts.getLast? with
  | none => defaultProgram
  | some part => if part = [dot, dot] then defaultProgram else (Text.text? part).getD defaultProgram

end Menagerie.CommandLine
