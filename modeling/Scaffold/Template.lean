import Scaffold.Merge
import Scaffold.SourceFile

namespace Scaffold

structure Template where
  path : Path
  tree : SyntaxTree

inductive TemplateError where
  | missing (path : Path) (cause : OsError)
  | malformed (path : Path) (fault : SyntaxFault)
  | classless (path : Path)
  deriving DecidableEq, Repr

def TemplateError.message : TemplateError → String
  | .missing path cause => "template " ++ path.text ++ " cannot be read: " ++ cause.message
  | .malformed path fault => "template " ++ path.text ++ " is invalid: " ++ fault.message
  | .classless path => "template " ++ path.text ++ " is invalid: no class declaration"

/-- The error with the causes behind it, each after a colon. -/
def TemplateError.chain : TemplateError → String
  | .missing path cause => (TemplateError.missing path cause).message ++ ": " ++ cause.message
  | e => e.message

/-- Reads a skeleton, which must declare a class. -/
def Template.load (d : Disk) (p : Path) : Except TemplateError Template :=
  match d.parse p with
  | .error (.unreadable path cause) => .error (.missing path cause)
  | .error (.malformed fault) => .error (.malformed p fault)
  | .ok tree => if tree.hasClass then .ok ⟨p, tree⟩ else .error (.classless p)

end Scaffold
