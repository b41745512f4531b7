import Scaffold.Disk
import Scaffold.SourceText

namespace Scaffold

/-- Why a file has no syntax tree. -/
inductive FileFault where
  | unreadable (path : Path) (cause : OsError)
  | malformed (fault : SyntaxFault)
  deriving DecidableEq, Repr

def FileFault.message : FileFault → String
  | .unreadable path cause => "Failed to read " ++ path.text ++ ": " ++ cause.message
  | .malformed fault => fault.message

def Disk.parse (d : Disk) (p : Path) : Except FileFault SyntaxTree :=
  match d.readText p with
  | .error cause => .error (.unreadable p cause)
  | .ok source =>
    match SyntaxTree.parse p.text source with
    | .ok t => .ok t
    | .error fault => .error (.malformed fault)

end Scaffold
