import Scaffold.Source.Span

namespace Scaffold

structure SyntaxNode where
  kind : String
  named : Bool := true
  /-- The role of the node in its parent. -/
  field : Option String := none
  span : Option Span := none
  leading : Option Span := none
  trailing : Option Span := none
  /-- The text that stands in place of the node's source. -/
  replacement : Option String := none
  parent : Option Nat := none
  children : List Nat := []
  deriving DecidableEq, Repr, Inhabited

namespace SyntaxNode

def leaf (kind text : String) : SyntaxNode :=
  { kind, replacement := some text }

def branch (kind : String) : SyntaxNode :=
  { kind }

def withField (n : SyntaxNode) (field : String) : SyntaxNode :=
  { n with field := some field }

/-- The node as a fixed token of the grammar. -/
def anonymous (n : SyntaxNode) : SyntaxNode :=
  { n with named := false }

def isSynthesized (n : SyntaxNode) : Bool :=
  n.span.isNone

end SyntaxNode

/-- A source text with the nodes read from it and those added since. -/
structure SyntaxTree where
  /-- The name under which complaints mention the text. -/
  origin : String
  source : String
  nodes : Array SyntaxNode
  deriving DecidableEq, Repr, Inhabited

namespace SyntaxTree

def root : Nat := 0

/-- The number of nodes, detached ones included. -/
def size (t : SyntaxTree) : Nat := t.nodes.size

def node (t : SyntaxTree) (id : Nat) : SyntaxNode :=
  t.nodes[id]?.getD default

def kind (t : SyntaxTree) (id : Nat) : String :=
  (t.node id).kind

def children (t : SyntaxTree) (id : Nat) : List Nat :=
  (t.node id).children

/-- The first child in a role. -/
def childByField (t : SyntaxTree) (id : Nat) (field : String) : Option Nat :=
  (t.children id).find? fun c => (t.node c).field == some field

def childrenOfKind (t : SyntaxTree) (id : Nat) (kind : String) : List Nat :=
  (t.children id).filter fun c => t.kind c == kind

/-- The text of a node: its replacement, else its source, else the texts of its children with
blanks between them. No path is longer than the number of nodes, which bounds the depth. -/
def textTo (t : SyntaxTree) : Nat → Nat → String
  | 0, _ => ""
  | depth + 1, id =>
    match (t.node id).replacement, (t.node id).span with
    | some text, _ => text
    | none, some span => span.cut t.source
    | none, none => " ".intercalate ((t.children id).map (t.textTo depth))

def text (t : SyntaxTree) (id : Nat) : String :=
  t.textTo (t.size + 1) id

def preorderTo (t : SyntaxTree) : Nat → Nat → List Nat
  | 0, _ => []
  | depth + 1, id => id :: (t.children id).flatMap (t.preorderTo depth)

def preorderFrom (t : SyntaxTree) (id : Nat) : List Nat :=
  t.preorderTo (t.size + 1) id

/-- The nodes that can be reached from the root, parents before their children. -/
def preorder (t : SyntaxTree) : List Nat :=
  t.preorderFrom root

/-- The first node with one of the kinds on the way up from `id`, in so many steps. -/
def ancestorTo (t : SyntaxTree) (kinds : List String) : Nat → Nat → Option Nat
  | 0, _ => none
  | steps + 1, id =>
    match (t.node id).parent with
    | none => none
    | some parent =>
      if kinds.contains (t.kind parent) then some parent else t.ancestorTo kinds steps parent

/-- The nearest ancestor with one of the kinds. -/
def ancestorOfKind (t : SyntaxTree) (id : Nat) (kinds : List String) : Option Nat :=
  t.ancestorTo kinds (t.size + 1) id

def modify (t : SyntaxTree) (id : Nat) (f : SyntaxNode → SyntaxNode) : SyntaxTree :=
  { t with nodes := t.nodes.modify id f }

/-- Puts a text in place of a node, which loses its range and its children but keeps its kind, its
role and the gap before it. -/
def replaceWithText (t : SyntaxTree) (id : Nat) (text : String) : SyntaxTree :=
  t.modify id fun n =>
    { n with span := none, trailing := none, replacement := some text, children := [] }

/-- Adds a node without a place in the tree. Its index is the former size. -/
def push (t : SyntaxTree) (n : SyntaxNode) : SyntaxTree :=
  { t with nodes := t.nodes.push n }

def adopt (t : SyntaxTree) (parent child : Nat) : SyntaxTree :=
  t.modify child fun n => { n with parent := some parent }

/-- Puts a node before the child at an index, or behind the last child. -/
def insertChild (t : SyntaxTree) (parent index child : Nat) : SyntaxTree :=
  (t.adopt parent child).modify parent fun n =>
    { n with children := n.children.insertIdx index child }

/-- Puts a node before the child at an index, if there is room for it. -/
def insertChild? (t : SyntaxTree) (parent index child : Nat) : Option SyntaxTree :=
  if index ≤ (t.children parent).length then some (t.insertChild parent index child) else none

def appendChild (t : SyntaxTree) (parent child : Nat) : SyntaxTree :=
  t.insertChild parent (t.children parent).length child

/-- Visits every node that can be reached before the pass, in preorder. -/
def visitAll (t : SyntaxTree) (visit : SyntaxTree → Nat → SyntaxTree) : SyntaxTree :=
  t.preorder.foldl visit t

end SyntaxTree

end Scaffold
