import Scaffold.Tree.Arena
import Scaffold.Tree.Concrete

namespace Scaffold

namespace Concrete

mutual

def size : Concrete → Nat
  | node _ _ _ _ cs => 1 + sizeAll cs

def sizeAll : List Concrete → Nat
  | [] => 0
  | c :: cs => c.size + sizeAll cs

end

/-- The roles that are noted. -/
def notedFields : List String := ["name", "body", "parameters"]

/-- The ranges of the first child in each noted role. -/
def fieldSpans (cs : List Concrete) : List (String × Span) :=
  notedFields.filterMap fun f => (cs.find? (·.label == some f)).map fun c => (f, c.span)

/-- The role whose child has the given range. -/
def fieldAt (fields : List (String × Span)) (s : Span) : Option String :=
  (fields.find? (·.2 == s)).map (·.1)

/-- Where the next gap starts after a child, if the last one started at `cursor`. -/
def advance (cursor : Nat) (c : Concrete) : Nat :=
  max c.span.stop (max c.span.start cursor)

/-- The indices of some trees in an arena, if the first stands at `next`. -/
def indices : Nat → List Concrete → List Nat
  | _, [] => []
  | next, c :: cs => next :: indices (next + c.size) cs

mutual

/-- The arena nodes of a tree that is placed at the index `id`. -/
def lowerNode (parent : Option Nat) (field : Option String) (leading span : Span) (id : Nat) :
    Concrete → List SyntaxNode
  -- Both the label and the range are given from outside: the root is taken wider than it is,
  -- and of the children in one role only the first has it.
  | node kind named _ _ cs =>
    let stop := cs.foldl advance span.start
    { kind, named, field, parent
      span := some span
      leading := some leading
      trailing := if cs.isEmpty then none else some ⟨stop, max span.stop stop⟩
      children := indices (id + 1) cs } ::
    lowerAll (fieldSpans cs) id span.start (id + 1) cs

/-- The arena nodes of the children of `parent` from the index `next` on, the first gap starting
at `cursor`. -/
def lowerAll (fields : List (String × Span)) (parent cursor next : Nat) :
    List Concrete → List SyntaxNode
  | [] => []
  | c :: cs =>
    lowerNode (some parent) (fieldAt fields c.span) ⟨cursor, max c.span.start cursor⟩ c.span next c
      ++ lowerAll fields parent (advance cursor c) (next + c.size) cs

end

/-- The arena of a concrete tree, whose root is taken to cover the whole source. -/
def lower (origin source : String) (c : Concrete) : SyntaxTree where
  origin := origin
  source := source
  nodes := (c.lowerNode none none ⟨0, 0⟩ ⟨0, source.utf8ByteSize⟩ 0).toArray

end Concrete

end Scaffold
