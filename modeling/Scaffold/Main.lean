import Scaffold.Program

namespace Scaffold.Shell

def systemName (l : Location) : IO.FS.DirEntry :=
  { root := (Disk.pathOf l.dropLast).text, fileName := l.getLastD "" }

def kindAt (l : Location) : IO (Option IO.FS.FileType) := do
  try
    return some (← (systemName l).path.symlinkMetadata).type
  catch _ => return none

/-- Reads what stands at a place and all below it. What cannot be read is left out. -/
partial def readTree (l : Location) : IO (List (Location × Entry)) := do
  let path := (systemName l).path
  try
    match ← kindAt l with
    | some .file => return [(l, .file (← IO.FS.readBinFile path))]
    | some .symlink => return [(l, .link (← IO.FS.realPath path).toString)]
    | some .dir =>
      let mut entries := [(l, Entry.directory)]
      for e in ← path.readDir do
        entries := (← readTree (l ++ [e.fileName])) ++ entries
      return entries
    | _ => return []
  catch _ => return []

/-- The place of a path, as seen from a directory. -/
def placeFrom (directory : Location) (p : Path) : Location :=
  p.components.foldl (fun l c =>
    match c with
    | .root => []
    | .here => l
    | .up => l.dropLast
    | .name text => l ++ [text]) directory

/-- The directories that lead to a place. -/
def directoriesTo (l : Location) : List (Location × Entry) :=
  (List.range l.length).map fun i => (l.take i, .directory)

/-- Reads some places, of which none below another one that was read is read again. -/
def readDisk (directory : Location) (places : List Location) : IO Disk := do
  let mut done : List Location := []
  let mut entries := []
  for l in places do
    unless done.any (·.isPrefixOf l) do
      entries := entries ++ (← readTree l) ++ directoriesTo l
      done := l :: done
  return ⟨directory, entries⟩

def readEnvironment : IO Environment := do
  let bytes ← IO.FS.readBinFile "/proc/self/environ"
  let texts := (String.fromUTF8? bytes).getD ""
  let pairs := (Text.splitWhere (· == '\x00') texts.toList).filterMap fun cs =>
    match cs.dropWhile (· != '=') with
    | _ :: value => some (String.ofList (cs.takeWhile (· != '=')), String.ofList value)
    | [] => none
  return ⟨pairs⟩

/-- The places that a run may look at. -/
def placesFor (directory : Location) (env : Environment) (args : List String) : List Location :=
  let given := match CommandLine.parse args with
    | .ok a =>
      let project := (a.project.map (placeFrom directory)).getD directory
      project :: (a.config.map (placeFrom project)).toList
    | .error _ => []
  let place : ConfigPlace := { disk := ⟨directory, []⟩, environment := env, project := ⟨""⟩ }
  let user := place.userFile?
  let dotenvs := (List.range directory.length).map fun i => directory.take i ++ [".env"]
  directory :: given ++ (user.map (placeFrom directory)).toList ++ dotenvs

/-- Writes the files that were made or changed. -/
def writeBack (before after : Disk) : IO Unit := do
  for (l, content) in after.files do
    unless before.get? l == some (.file content) do
      IO.FS.createDirAll (Disk.pathOf l.dropLast).text
      IO.FS.writeBinFile (systemName l).path content

/-- The least level of the events that are shown. -/
def isShown (a : Arguments) (e : LogEvent) : Bool :=
  match e.level with
  | .error => true
  | .warn => !a.quiet
  | _ => !a.quiet && a.verbose

def showEvents (args : List String) (events : List LogEvent) : IO Unit := do
  if let .ok a := CommandLine.parse args then
    for e in events.filter (isShown a) do
      IO.eprintln e.line

end Scaffold.Shell

open Scaffold Shell in
def main (args : List String) : IO UInt32 := do
  let directory := placeFrom [] ⟨(← IO.currentDir).toString⟩
  let env ← readEnvironment
  let disk ← readDisk directory (placesFor directory env args)
  let r := Program.run disk env args
  showEvents args r.events
  writeBack disk r.disk
  IO.print r.output
  if let some e := r.error then
    IO.eprintln ("tsmith error: " ++ e.message)
  return r.exitStatus.toUInt32
