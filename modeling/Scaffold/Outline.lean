import Scaffold.Tree.Arena

namespace Scaffold

namespace SyntaxTree

def holderKinds : List String := ["namespace_definition", "class_declaration", "trait_declaration"]

def classKinds : List String := ["class_declaration", "trait_declaration"]

def modifierKinds : List String :=
  ["visibility_modifier", "abstract_modifier", "static_modifier", "final_modifier"]

/-- Whether a node is a method directly in the body of a class or trait. -/
def isMember (t : SyntaxTree) (id : Nat) : Bool :=
  t.kind id == "method_declaration" &&
    (t.node id).parent.any fun body =>
      (t.node body).field == some "body" &&
        (t.node body).parent.any fun owner => classKinds.contains (t.kind owner)

def hasParts (t : SyntaxTree) (id : Nat) : Bool :=
  holderKinds.contains (t.kind id) || t.isMember id

def inOutline (t : SyntaxTree) (id : Nat) : Bool :=
  t.kind id == "program" || t.hasParts id ||
    (t.node id).parent.any fun p =>
      t.hasParts p && ((t.node id).field.isSome || modifierKinds.contains (t.kind id))

/-- The nodes of a tree's outline, in preorder. -/
def outline (t : SyntaxTree) : List Nat :=
  t.preorder.filter t.inOutline

/-- The nearest declaration around a node. -/
def holder (t : SyntaxTree) (id : Nat) : Option Nat :=
  t.ancestorOfKind id holderKinds

end SyntaxTree

end Scaffold
