import Scaffold.Declaration
import Scaffold.Naming
import Scaffold.Scan

namespace Scaffold

structure TargetLayout where
  sourceBase : Path
  namespaceRoot : String
  testDirectory : Path
  extension : String
  deriving DecidableEq, Repr

/-- A declaration and the test class that belongs to it. -/
structure TestTarget where
  sourcePath : Path
  declaration : Declaration
  namesp : String
  className : String
  path : Path
  deriving DecidableEq, Repr

namespace TargetLayout

/-- The directories of a file below the source base, or below its root if it lies outside the
base. -/
def directories (layout : TargetLayout) (f : ScannedFile) : List String :=
  let parent := f.path.parentComponents
  let below := (layout.sourceBase.componentsBelow? parent).or (f.root.componentsBelow? parent)
  (below.getD []).filterMap Component.name?

def namespaceOf (layout : TargetLayout) (directories : List String) : String :=
  "\\".intercalate ((layout.namespaceRoot :: directories).filter (!·.isEmpty))

def resolve (layout : TargetLayout) (f : ScannedFile) (d : Declaration) : TestTarget :=
  let directories := layout.directories f
  let className := d.name ++ Naming.testClassSuffix
  { sourcePath := f.path
    declaration := d
    namesp := layout.namespaceOf directories
    className
    path := (directories.foldl (fun p name => p.join ⟨name⟩) layout.testDirectory).join
      ⟨className ++ "." ++ layout.extension⟩ }

end TargetLayout

/-- The targets whose path no other target of the list has. -/
def dropCollisions (targets : List TestTarget) : List TestTarget :=
  targets.filter fun t => targets.countP (fun u => u.path.same t.path) < 2

/-- The targets that share their path with another one. -/
def collisions (targets : List TestTarget) : List TestTarget :=
  targets.filter fun t => !(targets.countP (fun u => u.path.same t.path) < 2)

end Scaffold
