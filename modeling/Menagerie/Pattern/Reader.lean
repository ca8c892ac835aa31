import Menagerie.Pattern
import Menagerie.Pattern.CodeSet
import Menagerie.Text.Blank
import Menagerie.Text.Letter

/-! Patterns as texts. Alternatives stand between bars, groups in parentheses, classes in brackets; a
star, a plus or a question mark repeats what is in front of it, and a question mark behind them makes
them lazy. Flags in a group hold to its end. Counted repetitions are not read.

A pattern speaks about all characters unless a flag turns that off and leaves ASCII. No properties and
no cases of characters are known beyond ASCII, so a pattern about all characters is refused if it asks
for them, and a pattern about ASCII if it asks for what is not ASCII. -/

namespace Menagerie.Pattern

structure Flags where
  ignoreCase : Bool := false
  multiLine : Bool := false
  dotAll : Bool := false
  swapGreed : Bool := false
  unicode : Bool := true
  carriageReturn : Bool := false
  /-- Blanks and comments are passed over. -/
  spaced : Bool := false

structure Scan where
  rest : List Char
  flags : Flags := {}
  names : List String := []
  /-- Whether words of all characters have to delimit some place. -/
  wideWords : Bool := false

abbrev Reader := StateT Scan Option

/-- What comes after blanks and comments; a comment ends with its line. -/
def dropSpacing (inComment : Bool) : List Char → List Char
  | [] => []
  | c :: rest =>
    if inComment then dropSpacing (c != '\n') rest
    else if c == '#' then dropSpacing true rest
    else if Text.isBlank c then dropSpacing false rest
    else c :: rest

namespace Reader

def flags : Reader Flags := fun s => some (s.flags, s)

def setFlags (f : Flags) : Reader Unit := fun s => some ((), { s with flags := f })

/-- Passes over blanks and comments if the flags say so. -/
def skip : Reader Unit := fun s =>
  some ((), if s.flags.spaced then { s with rest := dropSpacing false s.rest } else s)

def peek : Reader (Option Char) := fun s => some (s.rest.head?, s)

def rest : Reader (List Char) := fun s => some (s.rest, s)

def fail {α : Type} : Reader α := fun _ => none

/-- Takes one character. -/
def next : Reader Char := fun s =>
  match s.rest with
  | [] => none
  | c :: rest => some (c, { s with rest })

/-- Takes a text if it comes next. -/
def take? (text : String) : Reader Bool := fun s =>
  let cs := text.toList
  if cs.isPrefixOf s.rest then some (true, { s with rest := s.rest.drop cs.length })
  else some (false, s)

end Reader

open Reader

/-- One element: a character, written as an octet or not, a class, or a look. -/
inductive Element where
  | literal (c : Char) (octet : Bool)
  | set (s : CodeSet)
  | look (l : Look)

def hexDigit? (c : Char) : Option Nat :=
  if c.isDigit then some (c.toNat - '0'.toNat)
  else if 'a' ≤ c ∧ c ≤ 'f' then some (c.toNat - 'a'.toNat + 10)
  else if 'A' ≤ c ∧ c ≤ 'F' then some (c.toNat - 'A'.toNat + 10)
  else none

/-- Reads some hexadecimal digits after those that denote `n`. -/
def readHex : Nat → Nat → Reader Nat
  | 0, n => return n
  | count + 1, n => do
    skip
    match hexDigit? (← next) with
    | some d => readHex count (16 * n + d)
    | none => fail

/-- The character with a number. -/
def charOf? (n : Nat) : Option Char := if n.isValidChar then some (Char.ofNat n) else none

def readCodePoint (digits : Nat) : Reader Element := do
  match charOf? (← readHex digits 0) with
  | some c => return .literal c (digits == 2)
  | none => fail

/-- A condition on words around a place. -/
def lookAtWords (l : Look) : Reader Element := fun s =>
  some (.look l, { s with wideWords := s.wideWords || s.flags.unicode })

/-- Reads what a backslash introduces. -/
def readEscape : Reader Element := do
  let f ← flags
  let c ← next
  match c with
  | 'x' => readCodePoint 2
  | 'u' => readCodePoint 4
  | 'U' => readCodePoint 8
  | 'd' | 's' | 'w' =>
    match f.unicode, CodeSet.ofEscape? c with
    | false, some s => return .set s
    | _, _ => fail
  | 'a' => return .literal '\x07' false
  | 'f' => return .literal '\x0c' false
  | 't' => return .literal '\t' false
  | 'n' => return .literal '\n' false
  | 'r' => return .literal '\r' false
  | 'v' => return .literal '\x0b' false
  | 'A' => return .look .start
  | 'z' => return .look .finish
  | 'b' => lookAtWords (.boundary false)
  | 'B' => lookAtWords (.boundary true)
  | '<' => lookAtWords .wordStart
  | '>' => lookAtWords .wordFinish
  | c => if c.toNat < 128 && !c.isAlphanum then return .literal c false else fail

/-! ## Classes -/

/-- Reads one end of a range, or one member of a class. -/
def readMember : Reader Element := do
  match ← next with
  | '\\' => readEscape
  | c => return .literal c false

/-- Whether the cases of all characters would have to be known. -/
def Flags.needsCases (f : Flags) : Bool := f.unicode && f.ignoreCase

/-- The code point of a character in a class. -/
def memberCode (f : Flags) : Element → Option Nat
  | .literal c _ =>
    if f.needsCases || (!f.unicode && 128 ≤ c.toNat) then none else some c.toNat
  | _ => none

/-- Reads a member of a class, or a range of members. -/
def readRange : Reader CodeSet := do
  let f ← flags
  let first ← readMember
  skip
  let rest ← rest
  match rest with
  | [] => fail
  | c :: after =>
    let after := if f.spaced then dropSpacing false after else after
    if c != '-' || after.head? == some ']' || after.head? == some '-' then
      match first with
      | .set s => return s
      | first =>
        match memberCode f first with
        | some n => return .single n
        | none => fail
    else
      discard next
      skip
      let last ← readMember
      match memberCode f first, memberCode f last with
      | some n, some m => if n ≤ m then return .range n m else fail
      | _, _ => fail

/-- Reads a class of ASCII between colons, if one comes next. Negated it holds more than ASCII. -/
def readAscii? : Reader (Option CodeSet) := fun s =>
  match s.rest with
  | '[' :: ':' :: rest =>
    let (negated, rest) :=
      match rest with
      | '^' :: rest => (true, rest)
      | rest => (false, rest)
    let name := rest.takeWhile (· != ':')
    match rest.drop name.length, CodeSet.ascii? (String.ofList name) with
    | ':' :: ']' :: rest, some set =>
      if s.flags.needsCases || (negated && !s.flags.unicode) then none
      else some (some (if negated then set.complement else set), { s with rest })
    | _, _ => some (none, s)
  | _ => some (none, s)

/-- How the classes around an operator are joined. -/
inductive ClassOperator where
  | intersect | difference | symmetricDifference

namespace ClassOperator

def apply : ClassOperator → CodeSet → CodeSet → CodeSet
  | intersect => CodeSet.intersect
  | difference => CodeSet.difference
  | symmetricDifference => CodeSet.symmetricDifference

end ClassOperator

/-- Something read, and how deeply groups, classes, repetitions and sequences are nested in it. -/
structure Nested (α : Type) where
  item : α
  depth : Nat := 0

/-- The members of a class so far: their union, their number and the depth of the deepest. -/
structure Members where
  set : CodeSet := .none
  count : Nat := 0
  depth : Nat := 0

namespace Members

def add (m : Members) (s : Nested CodeSet) : Members :=
  ⟨m.set.union s.item, m.count + 1, max m.depth s.depth⟩

/-- All members as one class; two of them or more nest. -/
def toNested (m : Members) : Nested CodeSet :=
  ⟨m.set, if m.count ≤ 1 then m.depth else m.depth + 1⟩

end Members

/-- What an operator in a class has on its left. -/
structure Waiting where
  op : ClassOperator
  left : Nested CodeSet

/-- Joins the members gathered last with what an operator in front of them waits for. -/
def joinClass (f : Flags) (waiting : Option Waiting) (members : Members) : Nested CodeSet :=
  let fold (s : CodeSet) : CodeSet := if f.ignoreCase then s.foldCase else s
  let right := members.toNested
  match waiting with
  | none => right
  | some w => ⟨w.op.apply (fold w.left.item) (fold right.item), max w.left.depth right.depth + 1⟩

/-- Reads hyphens at the start of a class, which stand for themselves. -/
def readHyphens : Nat → Members → Reader Members
  | 0, members => return members
  | bound + 1, members => do
    if ← take? "-" then
      skip
      readHyphens bound (members.add ⟨.single '-'.toNat, 0⟩)
    else return members

/-- What a class ends as: folded and negated. Negated it holds more than ASCII. -/
def finishClass (f : Flags) (negated : Bool) (s : CodeSet) : Option CodeSet :=
  let s := if f.ignoreCase then s.foldCase else s
  if !negated then some s
  else if f.unicode then some s.complement
  else none

mutual

/-- Reads a class from behind its bracket; `bound` is at least the length of the input. -/
def readClass : Nat → Reader (Nested CodeSet)
  | 0 => fail
  | bound + 1 => do
    let f ← flags
    skip
    let negated ← take? "^"
    skip
    let members ← readHyphens (← rest).length {}
    let bracket ← if members.count = 0 then take? "]" else pure false
    if (bracket || members.count != 0) && f.needsCases then fail
    let members := if bracket then members.add ⟨.single ']'.toNat, 0⟩ else members
    let s ← readMembers bound none members
    match finishClass f negated s.item with
    | some set => return ⟨set, s.depth + 1⟩
    | none => fail

/-- Reads members and operators up to the closing bracket. -/
def readMembers : Nat → Option Waiting → Members → Reader (Nested CodeSet)
  | 0, _, _ => fail
  | bound + 1, waiting, members => do
    let f ← flags
    skip
    let after (op : ClassOperator) : Reader (Nested CodeSet) :=
      readMembers bound (some ⟨op, joinClass f waiting members⟩) {}
    match ← readAscii? with
    | some s => readMembers bound waiting (members.add ⟨s, 0⟩)
    | none =>
      if ← take? "[" then readMembers bound waiting (members.add (← readClass bound))
      else if ← take? "]" then return joinClass f waiting members
      else if ← take? "&&" then after .intersect
      else if ← take? "--" then after .difference
      else if ← take? "~~" then after .symmetricDifference
      else readMembers bound waiting (members.add ⟨← readRange, 0⟩)

end

/-! ## Groups and sequences -/

/-- Reads the name of a group up to its angle bracket. -/
def readName : Reader Unit := fun s =>
  let name := s.rest.takeWhile (· != '>')
  let good : Bool :=
    match name with
    | [] => false
    | c :: rest => (c == '_' || Text.isAlphabetic c)
        && rest.all fun c => "_.[]".toList.contains c || Text.isAlphanumeric c
  match s.rest.drop name.length with
  | '>' :: rest =>
    let text := String.ofList name
    if good && !s.names.contains text then some ((), { s with rest, names := text :: s.names })
    else none
  | _ => none

/-- Sets one flag. -/
def Flags.set? (f : Flags) (on : Bool) : Char → Option Flags
  | 'i' => some { f with ignoreCase := on }
  | 'm' => some { f with multiLine := on }
  | 's' => some { f with dotAll := on }
  | 'U' => some { f with swapGreed := on }
  | 'u' => some { f with unicode := on }
  | 'R' => some { f with carriageReturn := on }
  | 'x' => some { f with spaced := on }
  | _ => none

/-- The flags after a run of letters; each letter and the hyphen, which turns what follows off, occur
once at most, and the hyphen is not the last. -/
def Flags.apply (f : Flags) (letters : List Char) : Option Flags :=
  if !letters.Nodup || letters.getLast? == some '-' then none
  else
    let on := letters.takeWhile (· != '-')
    let off := (letters.dropWhile (· != '-')).drop 1
    (on.foldlM (fun (f : Flags) c => f.set? true c) f).bind fun f =>
      off.foldlM (fun (f : Flags) c => f.set? false c) f

/-- How a group opens: with flags that hold from here on, or with a pattern inside. -/
inductive Opening where
  | flags
  | inside (f : Flags)

/-- Reads the start of a group from behind its parenthesis. -/
def readOpening : Reader Opening := do
  let f ← flags
  skip
  if (← take? "?=") || (← take? "?!") || (← take? "?<=") || (← take? "?<!") then fail
  else if (← take? "?P<") || (← take? "?<") then
    readName
    return .inside f
  else if ← take? "?" then
    let letters := (← rest).takeWhile fun c => c != ':' && c != ')'
    for _ in letters do discard next
    match f.apply letters, ← next with
    | some f, ':' => return .inside f
    | some f, _ =>
      if letters.isEmpty then fail
      else
        setFlags f
        return .flags
    | none, _ => fail
  else return .inside f

/-- A character as a pattern. -/
def ofLiteral? (f : Flags) (c : Char) (octet : Bool) : Option Pattern :=
  if f.needsCases || (!f.unicode && octet && 128 ≤ c.toNat) then none
  else
    let s := CodeSet.single c.toNat
    let s := if f.ignoreCase then s.foldCase else s
    some (.char fun d => s d.toNat)

def ofElement? (f : Flags) : Element → Option Pattern
  | .literal c octet => ofLiteral? f c octet
  | .set s => some (.char fun c => s c.toNat)
  | .look l => some (.look l)

/-- A point, which stands for every character but the ends of lines. -/
def point? (f : Flags) : Option Pattern :=
  if !f.unicode then none
  else if f.dotAll then some (.char fun _ => true)
  else some (.char fun c => c != '\n' && !(f.carriageReturn && c == '\r'))

/-- A part of a sequence and whether it can be repeated. -/
structure Part extends Nested Pattern where
  repeatable : Bool := true

/-- Repeats the last part. -/
def repeatLast (make : Bool → Pattern → Pattern) : List Part → Reader (List Part)
  | ⟨p, true⟩ :: parts => do
    let f ← flags
    let lazily ← take? "?"
    return { item := make (lazily == f.swapGreed) p.item, depth := p.depth + 1 } :: parts
  | _ => fail

/-- Joins patterns that were gathered in reverse; two of them or more nest. -/
def join (make : Pattern → Pattern → Pattern) : List (Nested Pattern) → Nested Pattern
  | [] => ⟨.empty, 0⟩
  | [p] => p
  | p :: rest =>
    ⟨rest.foldl (fun q p => make p.item q) p.item, (rest.foldl (max · ·.depth) p.depth) + 1⟩

def sequence (parts : List Part) : Nested Pattern := join .concat (parts.map (·.toNested))

def partOf : Option Pattern → Reader Part
  | some p => return { item := p }
  | none => fail

mutual

/-- Reads alternatives up to a parenthesis or the end, behind others that come in reverse; `bound` is
at least the length of the input. -/
def readAlternatives : Nat → List (Nested Pattern) → Reader (Nested Pattern)
  | 0, _ => fail
  | bound + 1, before => do
    let p ← readSequence bound []
    if ← take? "|" then readAlternatives bound (p :: before)
    else return join .either (p :: before)

/-- Reads one alternative; its parts so far are in reverse. -/
def readSequence : Nat → List Part → Reader (Nested Pattern)
  | 0, _ => fail
  | bound + 1, parts => do
    skip
    let f ← flags
    match ← peek with
    | none => return sequence parts
    | some ')' => return sequence parts
    | some '|' => return sequence parts
    | some c =>
      discard next
      let parts ←
        match c with
        | '(' =>
          match ← readOpening with
          | .flags => pure ({ item := .empty, repeatable := false } :: parts)
          | .inside inner =>
            setFlags inner
            let p ← readAlternatives bound []
            setFlags f
            if ← take? ")" then pure ({ item := p.item, depth := p.depth + 1 } :: parts) else fail
        | '[' => do
          let s ← readClass bound
          pure ({ item := .char fun c => s.item c.toNat, depth := s.depth } :: parts)
        | '?' => repeatLast .optional parts
        | '*' => repeatLast .star parts
        | '+' => repeatLast .plus parts
        | '{' => fail
        | '.' => do pure ((← partOf (point? f)) :: parts)
        | '^' =>
          let l := if f.multiLine then Look.lineStart f.carriageReturn else .start
          pure ({ item := .look l } :: parts)
        | '$' =>
          let l := if f.multiLine then Look.lineFinish f.carriageReturn else .finish
          pure ({ item := .look l } :: parts)
        | '\\' => do pure ((← partOf (ofElement? f (← readEscape))) :: parts)
        | c => do pure ((← partOf (ofLiteral? f c false)) :: parts)
      readSequence bound parts

end

/-- Why a text is no pattern that can be used. -/
inductive Fault where
  | malformed
  /-- Words beyond ASCII cannot delimit places. -/
  | wordBoundary
  deriving DecidableEq, Repr

def Fault.message : Fault → String
  | malformed => "error building NFA"
  | wordBoundary => "unsupported regex feature for DFAs: cannot build DFAs for regexes with "
      ++ "Unicode word boundaries; switch to ASCII word boundaries, or heuristically enable Unicode "
      ++ "word boundaries or use a different regex engine"

/-- How deeply a pattern may be nested. -/
def nestLimit : Nat := 250

/-- Reads a whole text as a pattern. -/
def read (s : String) : Except Fault Pattern :=
  let cs := s.toList
  match (readAlternatives (2 * cs.length + 2) []).run { rest := cs } with
  | some (p, { rest := [], wideWords, .. }) =>
    if nestLimit < p.depth then .error .malformed
    else if wideWords then .error .wordBoundary
    else .ok p.item
  | _ => .error .malformed

end Menagerie.Pattern
