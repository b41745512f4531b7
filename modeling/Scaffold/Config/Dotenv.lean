import Scaffold.Config.Environment
import Scaffold.Disk
import Scaffold.Text.Alphanumeric

namespace Scaffold.Dotenv

inductive LineState where
  | plain
  /-- Behind a blank, where a comment can start. -/
  | afterBlank
  | escaped
  | inDouble
  | inDoubleEscaped
  | inSingle
  | inSingleEscaped
  | inComment
  deriving DecidableEq, Repr

namespace LineState

/-- The state behind a character that opens a quote, an escape or nothing. -/
def opening (c : Char) : LineState :=
  if c == '\\' then escaped
  else if c == '"' then inDouble
  else if c == '\'' then inSingle
  else plain

/-- The state behind one more character. -/
def next : LineState → Char → LineState
  | afterBlank, c => if c == '#' then inComment else opening c
  | plain, c =>
    if Text.isBlank c && c != '\n' && c != '\r' then afterBlank else opening c
  | escaped, _ => plain
  | inDouble, c => if c == '\\' then inDoubleEscaped else if c == '"' then plain else inDouble
  | inDoubleEscaped, _ => inDouble
  | inSingle, c => if c == '\\' then inSingleEscaped else if c == '\'' then plain else inSingle
  | inSingleEscaped, _ => inSingle
  | inComment, _ => inComment

end LineState

/-- The state at the end of a text, and the text without a comment. -/
def readText : LineState → List Char → LineState × List Char
  | s, [] => (s, [])
  | s, c :: cs =>
    match s.next c with
    | .inComment => (.inComment, [])
    | s => (readText s cs).map id (c :: ·)

/-- Cuts bytes behind every line end. -/
def byteLines : List UInt8 → List (List UInt8)
  | [] => []
  | b :: bs =>
    if b == 10 then [b] :: byteLines bs
    else match byteLines bs with
      | [] => [[b]]
      | l :: ls => (b :: l) :: ls

/-- The bytes of a file without a mark of the byte order at the front. -/
def withoutMark : List UInt8 → List UInt8
  | 0xEF :: 0xBB :: 0xBF :: bs => bs
  | bs => bs

/-- The lines of a file; a line that is no text is left open. -/
def physicalLines (content : ByteArray) : List (Option (List Char)) :=
  (byteLines (withoutMark content.toList)).map fun l =>
    (String.fromUTF8? ⟨l.toArray⟩).map String.toList

def chomp (cs : List Char) : List Char :=
  match cs.reverse with
  | '\n' :: '\r' :: rest => rest.reverse
  | '\n' :: rest => rest.reverse
  | _ => cs

/-- Puts together the lines that quotes hold together, given what is open. A line that only holds a
comment becomes empty, and a text that never closes cannot be read. -/
def logicalLines (state : LineState) (before : List Char) : List (Option (List Char)) →
    List (Option (List Char))
  | [] => if state == .plain then [] else [none]
  | none :: _ => [none]
  | some l :: ls =>
    let whole := before ++ l
    if (whole.dropWhile Text.isBlank).head? == some '#' then
      some [] :: logicalLines .plain [] ls
    else match readText state l with
      | (.plain, _) => some (chomp whole) :: logicalLines .plain [] ls
      | (.inComment, kept) => some (before ++ kept) :: logicalLines .plain [] ls
      | (s, _) => logicalLines s whole ls

def isNameStart (c : Char) : Bool :=
  c.isAlpha || c == '_'

def isNameChar (c : Char) : Bool :=
  c.isAlphanum || c == '_' || c == '.'

def name? (cs : List Char) : Option (String × List Char) :=
  if cs.head?.any isNameStart then some (.ofList (cs.takeWhile isNameChar), cs.dropWhile isNameChar)
  else none

def equals? : List Char → Option (List Char)
  | '=' :: rest => some rest
  | _ => none

/-- How far the name of a variable behind a dollar sign is read. -/
inductive Substitution where
  | none
  | bare (name : List Char)
  | braced (name : List Char)
  deriving DecidableEq, Repr

structure ValueState where
  output : List Char := []
  substitution : Substitution := .none
  inSingle : Bool := false
  inDouble : Bool := false
  escaped : Bool := false
  /-- Only blanks and a comment may follow. -/
  closed : Bool := false
  /-- A comment has started. -/
  ended : Bool := false

namespace ValueState

def emit (s : ValueState) (cs : List Char) : ValueState :=
  { s with output := s.output ++ cs }

def escape? (c : Char) : Option Char :=
  if c == '\\' || c == '\'' || c == '"' || c == '$' || c == ' ' then some c
  else if c == 'n' then some '\n'
  else none

/-- Reads one more character of a name behind a dollar sign; `lookup` knows the variables. -/
def substitute (lookup : List Char → List Char) (s : ValueState) (c : Char) : ValueState :=
  match s.substitution with
  | .none => s
  | .bare name =>
    if Text.isAlphanumeric c then { s with substitution := .bare (name ++ [c]) }
    else if c == '\x7b' && name.isEmpty then { s with substitution := .braced [] }
    else
      let s := s.emit (lookup name)
      if c == '$' then { s with substitution := .bare [] }
      else { s.emit [c] with substitution := .none }
  | .braced name =>
    if c == '\x7d' then { s.emit (lookup name) with substitution := .none }
    else { s with substitution := .braced (name ++ [c]) }

/-- Reads one more character outside of escapes, single quotes and names. -/
def open? (s : ValueState) (c : Char) : ValueState :=
  if c == '$' then { s with substitution := .bare [] }
  else if c == '\\' then { s with escaped := true }
  else if s.inDouble then if c == '"' then { s with inDouble := false } else s.emit [c]
  else if c == '\'' then { s with inSingle := true }
  else if c == '"' then { s with inDouble := true }
  else if c == ' ' || c == '\t' then { s with closed := true }
  else s.emit [c]

def step (lookup : List Char → List Char) (s : ValueState) (c : Char) : Option ValueState :=
  if s.ended then some s
  else if s.closed then
    if c == ' ' || c == '\t' then some s
    else if c == '#' then some { s with ended := true }
    else none
  else if s.escaped then
    (escape? c).map fun e => { s.emit [e] with escaped := false }
  else if s.inSingle then
    some (if c == '\'' then { s with inSingle := false } else s.emit [c])
  else if s.substitution != .none then some (s.substitute lookup c)
  else some (s.open? c)

/-- The value at the end of a line. -/
def finish (lookup : List Char → List Char) (s : ValueState) : Option (List Char) :=
  if s.inSingle || s.inDouble then none
  else match s.substitution with
    | .braced _ => none
    | .bare name => some (s.output ++ lookup name)
    | .none => some s.output

end ValueState

def value? (lookup : List Char → List Char) (cs : List Char) : Option (List Char) :=
  if cs.isEmpty || cs.head? == some '#' then some []
  else (cs.foldlM (ValueState.step lookup) {}).bind (ValueState.finish lookup)

/-- The name and what follows the equals sign of a line; `export` may stand before the name. -/
def assignment? (cs : List Char) : Option (String × List Char) := do
  let (name, rest) ← name? cs
  let rest := rest.dropWhile Text.isBlank
  match equals? rest with
  | some rest => return (name, rest)
  | none =>
    if name != "export" then failure
    let (name, rest) ← name? rest
    return (name, ← equals? (rest.dropWhile Text.isBlank))

/-- The variable of one line and its value, if the line sets one. -/
def readLine (env : Environment) (line : List Char) : Option (Option (String × String)) := do
  let cs := Text.trimChars line
  if cs.isEmpty || cs.head? == some '#' then return none
  let (name, rest) ← assignment? cs
  let lookup (name : List Char) : List Char := ((env.get? (.ofList name)).getD "").toList
  let value ← value? lookup (rest.dropWhile Text.isBlank)
  return some (name, .ofList value)

/-- Sets a variable, unless the environment has it. -/
def define (env : Environment) (name value : String) : Except EnvironmentFault Environment :=
  if (env.get? name).isNone && value.toList.contains '\x00' then .error (.zeroCharacter name)
  else .ok (env.setDefault name value)

/-- Reads lines up to the first one that cannot be read. -/
def readLines (env : Environment) :
    List (Option (List Char)) → Except EnvironmentFault Environment
  | [] => .ok env
  | none :: _ => .ok env
  | some line :: rest =>
    match readLine env line with
    | some none => readLines env rest
    | some (some (name, value)) => do readLines (← define env name value) rest
    | none => .ok env

def apply (env : Environment) (content : ByteArray) : Except EnvironmentFault Environment :=
  readLines env (logicalLines .plain [] (physicalLines content))

/-- The file of variables for a project: the one in its directory, else the nearest one in the
working directory and the directories above it. -/
def find? (d : Disk) (project : Path) : Option Path :=
  let own := project.join ⟨".env"⟩
  if (d.lookUp? own).isSome then some own
  else ((d.ancestors).map (·.join ⟨".env"⟩)).find? d.isFile

def load (d : Disk) (project : Path) (env : Environment) :
    Except EnvironmentFault Environment :=
  match (find? d project).bind d.lookUp? with
  | some (.file content) => apply env content
  | _ => .ok env

end Scaffold.Dotenv
