import Scaffold.Disk
import Scaffold.Log

namespace Scaffold

structure ScannedFile where
  path : Path
  root : Path
  deriving DecidableEq, Repr

namespace Scan

/-- A path relative to a root, with slashes between the steps. -/
def relativeText (root path : Path) : String :=
  let steps := (root.componentsBelow? path.components).getD path.components
  "/".intercalate (steps.map Component.text)

/-- The first pattern that occurs in a file's path below its root. -/
def exclusion? (exclude : List String) (f : ScannedFile) : Option String :=
  exclude.find? fun pattern => Text.contains (relativeText f.root f.path) pattern

/-- Whether a root stands for the standard input, below which there are no files. -/
def isStandardInput (root : Path) : Bool :=
  root.components == [.name "-"]

def candidates (d : Disk) (extension : String) (root : Path) : List ScannedFile :=
  if isStandardInput root then []
  else ((d.filesBelow root).filter fun p => p.extension? == some extension).map fun p => ⟨p, root⟩

/-- The files with the extension below all roots, in the order of the roots. -/
def allCandidates (d : Disk) (roots : List Path) (extension : String) : List ScannedFile :=
  (roots.filter d.isDirectory).flatMap (candidates d extension)

/-- Drops every file whose path has the steps of the one before it. -/
def dropRepeats : List ScannedFile → List ScannedFile
  | [] => []
  | f :: fs =>
    match dropRepeats fs with
    | [] => [f]
    | g :: gs => if f.path.same g.path then f :: gs else f :: g :: gs

def sort (fs : List ScannedFile) : List ScannedFile :=
  fs.mergeSort fun f g => (f.path.cmp g.path).isLE

def rootEvents (d : Disk) (extension : String) (exclude : List String) (root : Path) :
    List LogEvent :=
  if d.isDirectory root then
    (candidates d extension root).filterMap fun f =>
      (exclusion? exclude f).map fun pattern =>
        ⟨.debug, "excluded", [("path", .text f.path.text), ("pattern", .text pattern)]⟩
  else [⟨.warn, "scan root is not a directory; skipping", [("root", .text root.text)]⟩]

end Scan

/-- The files with an extension below some roots, sorted by path and each path once. A file is left
out if a pattern occurs in its path below its root. -/
def scan (d : Disk) (roots : List Path) (extension : String) (exclude : List String) :
    List ScannedFile :=
  Scan.dropRepeats (Scan.sort
    ((Scan.allCandidates d roots extension).filter fun f => (Scan.exclusion? exclude f).isNone))

def scanEvents (d : Disk) (roots : List Path) (extension : String) (exclude : List String) :
    List LogEvent :=
  roots.flatMap (Scan.rootEvents d extension exclude)

end Scaffold
