import Scaffold.Path

namespace Scaffold

inductive OsError where
  | notFound
  | alreadyExists
  | notDirectory
  | isDirectory
  | nameTooLong
  | tooManyLinks
  | notUtf8
  deriving DecidableEq, Repr

def OsError.message : OsError → String
  | .notFound => "No such file or directory (os error 2)"
  | .alreadyExists => "File exists (os error 17)"
  | .notDirectory => "Not a directory (os error 20)"
  | .isDirectory => "Is a directory (os error 21)"
  | .nameTooLong => "File name too long (os error 36)"
  | .tooManyLinks => "Too many levels of symbolic links (os error 40)"
  | .notUtf8 => "stream did not contain valid UTF-8"

local instance decidableEqContent : DecidableEq ByteArray := ByteArray.decEq

inductive Entry where
  | file (content : ByteArray)
  | directory
  | link (target : String)
  deriving DecidableEq

/-- The names that lead from the root to a place, without dots and links. -/
abbrev Location := List String

/-- A file system and the directory against which relative paths are read. The root is always
there. -/
structure Disk where
  workingDirectory : Location
  entries : List (Location × Entry)

/-- Where a path leads: to something, or to a free name in a directory. -/
inductive Spot where
  | present (place : Location) (entry : Entry)
  | absent (place : Location)

namespace Disk

def get? (d : Disk) (l : Location) : Option Entry :=
  if l.isEmpty then some .directory else d.entries.lookup l

def put (d : Disk) (l : Location) (e : Entry) : Disk :=
  { d with entries := (l, e) :: d.entries.filter (·.1 != l) }

/-- Removes what stands at a place, and all below it. -/
def erase (d : Disk) (l : Location) : Disk :=
  { d with entries := d.entries.filter fun e => !l.isPrefixOf e.1 }

def names (d : Disk) (l : Location) : List String :=
  d.entries.filterMap fun e =>
    if e.1.length == l.length + 1 && l.isPrefixOf e.1 then e.1.getLast? else none

def longestName : Nat := 255

def longestPath : Nat := 4095

/-- Follows names from a directory. A link at the very end is followed if `follow` says so; what
becomes of other links `onLink` says, given the directory and the names from there on. -/
def walkWith (d : Disk) (follow : Bool) (onLink : Location → List String → Except OsError Spot) :
    Location → List String → Except OsError Spot
  | l, [] =>
    match d.get? l with
    | some e => .ok (.present l e)
    | none => .ok (.absent l)
  | l, name :: rest =>
    match d.get? l with
    | some .directory =>
      if name == "." then d.walkWith follow onLink l rest
      else if name == ".." then d.walkWith follow onLink l.dropLast rest
      else if longestName < name.utf8ByteSize then .error .nameTooLong
      else
        let next := l ++ [name]
        match d.get? next with
        | none => if rest.isEmpty then .ok (.absent next) else .error .notFound
        | some (.link target) =>
          if rest.isEmpty && !follow then .ok (.present next (.link target))
          else
            let p : Path := ⟨target⟩
            onLink (if p.isAbsolute then [] else l) (p.pieces.filter (!·.isEmpty) ++ rest)
        | some _ => d.walkWith follow onLink next rest
    | _ => .error .notDirectory

/-- Follows names from a directory, through at most so many links. -/
def walk (d : Disk) (follow : Bool) : Nat → Location → List String → Except OsError Spot
  | 0 => d.walkWith follow fun _ _ => .error .tooManyLinks
  | links + 1 => d.walkWith follow (d.walk follow links)

/-- Where a path leads. A slash at the end asks for a directory. -/
def find (d : Disk) (p : Path) (follow : Bool) : Except OsError Spot :=
  if p.text.isEmpty then .error .notFound
  else if longestPath < p.text.utf8ByteSize then .error .nameTooLong
  else
    let names := p.pieces.filter (!·.isEmpty)
    -- A dot behind the last name fails on a file, as the slash does.
    let names := if p.text.toList.getLast? == some '/' then names ++ ["."] else names
    -- The system follows forty links, not more.
    d.walk follow 40 (if p.isAbsolute then [] else d.workingDirectory) names

/-- What a path leads to, links being followed. -/
def lookUp? (d : Disk) (p : Path) : Option Entry :=
  match d.find p true with
  | .ok (.present _ e) => some e
  | _ => none

def isFile (d : Disk) (p : Path) : Bool :=
  match d.lookUp? p with
  | some (.file _) => true
  | _ => false

def isDirectory (d : Disk) (p : Path) : Bool :=
  d.lookUp? p == some .directory

def readText (d : Disk) (p : Path) : Except OsError String :=
  match d.find p true with
  | .ok (.present _ (.file content)) =>
    match String.fromUTF8? content with
    | some text => .ok text
    | none => .error .notUtf8
  | .ok (.present _ _) => .error .isDirectory
  | .ok (.absent _) => .error .notFound
  | .error e => .error e

def makeDirectory (d : Disk) (p : Path) : Except OsError Disk :=
  match d.find p false with
  | .ok (.absent l) => .ok (d.put l .directory)
  | .ok (.present _ _) => .error .alreadyExists
  | .error e => .error e

/-- Makes a directory and those that lead to it; its steps are given last one first. Directories
that were made stay even if a later one cannot be made. -/
def makeDirectories (d : Disk) : List Component → Disk × Except OsError Unit
  | [] => (d, .ok ())
  | c :: cs =>
    let p := Path.ofComponents (c :: cs).reverse
    match d.makeDirectory p with
    | .ok d' => (d', .ok ())
    | .error .notFound =>
      match d.makeDirectories cs with
      | (d', .ok ()) =>
        match d'.makeDirectory p with
        | .ok d'' => (d'', .ok ())
        | .error e => (d', if d'.isDirectory p then .ok () else .error e)
      | refused => refused
    -- What stands there already is good enough if it is a directory.
    | .error e => (d, if d.isDirectory p then .ok () else .error e)

def writeText (d : Disk) (p : Path) (text : String) : Except OsError Disk :=
  match d.find p true with
  | .ok (.present l (.file _)) => .ok (d.put l (.file text.toUTF8))
  | .ok (.present _ _) => .error .isDirectory
  | .ok (.absent l) => .ok (d.put l (.file text.toUTF8))
  | .error e => .error e

/-- Writes a text to a file after making the directories that lead to it. -/
def save (d : Disk) (p : Path) (text : String) : Disk × Except OsError Unit :=
  match d.makeDirectories p.parentComponents.reverse with
  | (d', .ok ()) =>
    match d'.writeText p text with
    | .ok d'' => (d'', .ok ())
    | .error e => (d', .error e)
  | refused => refused

/-- The files below a directory, down to a depth, with their paths as seen from `p`. Hidden names
are left out and links are not followed. -/
def filesTo (d : Disk) : Nat → Location → Path → List Path
  | 0, _, _ => []
  | depth + 1, l, p =>
    (d.names l).flatMap fun name =>
      if name.toList.head? == some '.' then []
      else match d.get? (l ++ [name]) with
        | some (.file _) => [p.join ⟨name⟩]
        | some .directory => d.filesTo depth (l ++ [name]) (p.join ⟨name⟩)
        | _ => []

def filesBelow (d : Disk) (p : Path) : List Path :=
  match d.find p true with
  | .ok (.present l .directory) => d.filesTo (d.entries.length + 1) l p
  | _ => []

def pathOf (l : Location) : Path :=
  ⟨"/" ++ "/".intercalate l⟩

/-- The working directory and the directories above it, the nearest first. -/
def ancestors (d : Disk) : List Path :=
  (List.range (d.workingDirectory.length + 1)).map fun i =>
    pathOf (d.workingDirectory.take (d.workingDirectory.length - i))

def files (d : Disk) : List (Location × ByteArray) :=
  d.entries.filterMap fun
    | (l, .file content) => some (l, content)
    | _ => none

end Disk

end Scaffold
