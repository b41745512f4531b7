import Scaffold.Php.Parse
import Scaffold.Tree.Lowering

namespace Scaffold

structure SyntaxFault where
  origin : String
  position : Position
  complaint : Php.Complaint
  deriving DecidableEq, Repr

def SyntaxFault.message (f : SyntaxFault) : String :=
  s!"Parse failed for {f.origin} at {f.position.line}:{f.position.column}: {f.complaint.message}"

/-- The syntax tree of a text that complaints call `origin`. -/
def SyntaxTree.parse (origin source : String) : Except SyntaxFault SyntaxTree :=
  match Php.parse source with
  | .ok c => .ok (c.lower origin source)
  | .error f => .error ⟨origin, Position.ofOffset source f.offset, f.complaint⟩

end Scaffold
