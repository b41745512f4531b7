import Scaffold.Target
import Scaffold.Template

namespace Scaffold

/-- Keeps the first of equal names. -/
def firstOccurrences (seen : List String) : List String → List String
  | [] => []
  | n :: ns => if seen.contains n then firstOccurrences seen ns
    else n :: firstOccurrences (n :: seen) ns

/-- The names of the tests that a declaration needs, in the order of its methods. -/
def Declaration.requiredTests (d : Declaration) (format : MethodFormat) : List String :=
  firstOccurrences [] (d.testable.map fun m => Naming.testMethodName format m.name)

namespace SyntaxTree

/-- The class of the given name among the declarations, else their first class. -/
def testClass? (t : SyntaxTree) (className : String) : Option Declaration :=
  let classes := t.declarations.filter (·.kind == .isClass)
  (classes.find? (·.name == className)).or classes.head?

/-- The names of the tests that a tree's test class has, brought into the convention. -/
def existingTests (t : SyntaxTree) (className : String) (format : MethodFormat) : List String :=
  match t.testClass? className with
  | none => []
  | some c =>
    let names := (c.methods.filter (·.visibility == .isPublic)).map fun m =>
      Naming.normalize format m.name
    -- Only public methods are run as tests.
    firstOccurrences [] (names.filter Naming.isTestName)

end SyntaxTree

structure TestPlan where
  required : List String
  existing : List String
  /-- The tree that takes the missing tests: the test file's if there is one, else the
  skeleton's. -/
  tree : SyntaxTree
  isExisting : Bool

namespace TestPlan

/-- The required tests that do not exist. -/
def missing (p : TestPlan) : List String :=
  p.required.filter (!p.existing.contains ·)

def isSatisfied (p : TestPlan) : Bool :=
  p.missing.isEmpty

end TestPlan

def plan (d : Disk) (t : TestTarget) (template : Template) (format : MethodFormat) :
    Except FileFault TestPlan :=
  let required := t.declaration.requiredTests format
  if d.isFile t.path then
    match d.parse t.path with
    | .ok tree => .ok ⟨required, tree.existingTests t.className format, tree, true⟩
    | .error fault => .error fault
  else .ok ⟨required, [], template.tree, false⟩

end Scaffold
