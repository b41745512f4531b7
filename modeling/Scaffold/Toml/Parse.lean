import Scaffold.Toml.Document
import Scaffold.Toml.Quoted

namespace Scaffold.Toml

/-- Reads something from the front of a text and leaves the rest. -/
abbrev Reader := StateT (List Char) Option

namespace Reader

def ofFunction (f : List Char → Option (α × List Char)) : Reader α := f

def skipWhile (p : Char → Bool) : Reader Unit :=
  fun cs => some ((), cs.dropWhile p)

def takeWhile (p : Char → Bool) : Reader (List Char) :=
  fun cs => some (cs.takeWhile p, cs.dropWhile p)

def char (c : Char) : Reader Unit
  | d :: cs => if d == c then some ((), cs) else none
  | [] => none

/-- Takes one given character if it comes next, and tells whether it did. -/
def char? (c : Char) : Reader Bool
  | d :: cs => if d == c then some (true, cs) else some (false, d :: cs)
  | [] => some (false, [])

/-- The next character, which is not taken. -/
def peek : Reader (Option Char) :=
  fun cs => some (cs.head?, cs)

/-- Reads as often as it goes, at most so many times. -/
def manyTo (r : Reader α) : Nat → Reader (List α)
  | 0 => pure []
  | n + 1 => (do
      let a ← r
      let as ← manyTo r n
      return a :: as) <|> pure []

/-- Reads as often as it goes; every time takes at least one character. -/
def many (r : Reader α) : Reader (List α) :=
  fun cs => manyTo r cs.length cs

end Reader

open Reader

/-- Values are nested less deeply than this, and keys have fewer parts. -/
def depthLimit : Nat := 80

def spaces : Reader Unit := skipWhile isSpace

def comment : Reader Unit := do
  if ← char? '#' then skipWhile isPlain

def lineEnd : Reader Unit :=
  ofFunction fun cs => (newline? cs).map ((), ·)

/-- Skips one line end with the blanks and the comment before it. -/
def blankLine : Reader Unit := do
  spaces
  comment
  lineEnd

/-- Skips blanks, comments and line ends. -/
def blankLines : Reader Unit := do
  let _ ← many blankLine
  spaces

def isKeyChar (c : Char) : Bool :=
  c.isAlphanum || c == '_' || c == '-'

def simpleKey : Reader String := do
  match ← peek with
  | some '"' =>
    char '"'
    return .ofList (← ofFunction basicText?)
  | some '\'' =>
    char '\''
    return .ofList (← ofFunction literalText?)
  | _ =>
    let cs ← takeWhile isKeyChar
    if cs.isEmpty then failure
    return .ofList cs

def dottedPart : Reader String := do
  spaces
  char '.'
  spaces
  simpleKey

/-- A key: the parts before the last one, and the last one. -/
def key : Reader (List String × String) := do
  let first ← simpleKey
  let parts := first :: (← many dottedPart)
  if depthLimit ≤ parts.length then failure
  return (parts.dropLast, parts.getLastD first)

def assignment (value : Reader Value) : Reader ((List String × String) × Value) := do
  let k ← key
  spaces
  char '='
  spaces
  let v ← value
  return (k, v)

/-- A value that is no list and no table. -/
def scalar : Reader Value := fun cs => do
  let word := cs.takeWhile isWordChar
  let rest := cs.dropWhile isWordChar
  let time := word ++ ' ' :: rest.tail.takeWhile isWordChar
  if isDate word && rest.head? == some ' ' && isMoment time then
    return (.moment (.ofList time), rest.tail.dropWhile isWordChar)
  let v ← scalar? word
  return (v, rest)

/-- A value in a list, with all blanks around it. -/
def element (value : Reader Value) : Reader Value := do
  blankLines
  let v ← value
  blankLines
  return v

def nextElement (value : Reader Value) : Reader Value := do
  char ','
  element value

/-- The values of a list; a comma may follow the last one. -/
def elements (value : Reader Value) : Reader (List Value) := do
  let first ← element value
  let others ← many (nextElement value)
  let _ ← char? ','
  return first :: others

/-- A list, behind its opening bracket. -/
def listValue (value : Reader Value) : Reader Value := do
  let items ← elements value <|> pure []
  blankLines
  char ']'
  return .list items

def nextAssignment (value : Reader Value) : Reader ((List String × String) × Value) := do
  spaces
  char ','
  spaces
  assignment value

/-- The assignments of a table on one line. -/
def assignments (value : Reader Value) : Reader (List ((List String × String) × Value)) := do
  let first ← assignment value
  let others ← many (nextAssignment value)
  return first :: others

/-- A table on one line, behind its opening brace. -/
def tableValue (value : Reader Value) : Reader Value := do
  spaces
  let pairs ← assignments value <|> pure []
  spaces
  char '\x7d'
  let es ← (pairs.foldlM (fun es ((path, k), v) => Entries.insert es [] path k v) [] :
    Option Entries)
  return es.toValue

/-- A text, a number, a switch, a date or a time. -/
def flatValue : Reader Value := do
  match ← peek with
  | some '"' | some '\'' => return .text (.ofList (← ofFunction quotedText?))
  | _ => scalar

/-- A value with lists and tables inside each other to at most so many levels. -/
def valueTo : Nat → Reader Value
  | 0 => flatValue
  | depth + 1 => do
    match ← peek with
    | some '[' =>
      char '['
      listValue (valueTo depth)
    | some '\x7b' =>
      char '\x7b'
      tableValue (valueTo depth)
    | _ => flatValue

def value : Reader Value := valueTo (depthLimit - 1)

inductive Statement where
  | nothing
  | header (path : List String) (name : String)
  | elementHeader (path : List String) (name : String)
  | assign (path : List String) (name : String) (v : Value)

/-- A header, behind its opening bracket. -/
def header : Reader Statement := do
  let double ← char? '['
  spaces
  let (path, name) ← key
  spaces
  char ']'
  if double then
    char ']'
    return .elementHeader path name
  return .header path name

def statement : Reader Statement := do
  spaces
  let s ← match ← peek with
    | none | some '#' | some '\n' | some '\r' => pure .nothing
    | some '[' => do
      char '['
      header
    | _ => do
      let ((path, name), v) ← assignment value
      pure (.assign path name v)
  spaces
  comment
  return s

/-- A document that is being read: its tables and the header that is in force. -/
structure Document where
  tables : Entries := []
  header : List String := []

/-- The document after one more statement. -/
def Document.step (d : Document) : Statement → Option Document
  | .nothing => some d
  | .header path name =>
    (Entries.within .passage (Entries.openTable name) path .header d.tables).map
      (⟨·, path ++ [name]⟩)
  | .elementHeader path name =>
    (Entries.within .passage (Entries.openElement name) path .header d.tables).map
      (⟨·, path ++ [name]⟩)
  | .assign path name v => (d.tables.insert d.header path name v).map (⟨·, d.header⟩)

def readLines : Nat → Document → List Char → Option Document
  | 0, _, _ => none
  | n + 1, d, cs => do
    let (s, rest) ← statement cs
    let d ← d.step s
    if rest.isEmpty then return d
    readLines n d (← newline? rest)

/-- The table that a document describes. A mark of the byte order at the front does not count. -/
def parse? (source : String) : Option Value :=
  let cs := match source.toList with
    | '\ufeff' :: rest => rest
    | cs => cs
  (readLines (cs.length + 1) {} cs).map fun d => d.tables.toValue

end Scaffold.Toml
