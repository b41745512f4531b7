import Scaffold.Source.Span

namespace Scaffold

/-- A node of a concrete tree. The label is the role that the node plays in its parent, such as
`name` or `body`; a named node stands for a grammar rule, an unnamed one for a fixed token. -/
inductive Concrete where
  | node (kind : String) (named : Bool) (label : Option String) (span : Span)
      (children : List Concrete)
  deriving Repr, Inhabited

namespace Concrete

def kind : Concrete → String
  | node k _ _ _ _ => k

def named : Concrete → Bool
  | node _ n _ _ _ => n

def label : Concrete → Option String
  | node _ _ l _ _ => l

def span : Concrete → Span
  | node _ _ _ s _ => s

def children : Concrete → List Concrete
  | node _ _ _ _ cs => cs

def withLabel (l : String) : Concrete → Concrete
  | node k n _ s cs => node k n (some l) s cs

/-- Remarks and text between code islands may stand between any two tokens. -/
def isExtra (c : Concrete) : Bool :=
  c.kind == "comment" || c.kind == "text_interpolation"

end Concrete

end Scaffold
