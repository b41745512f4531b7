import Scaffold.Tree.Arena
import Scaffold.Text.Blank

namespace Scaffold

inductive Visibility where
  | isPublic
  | isProtected
  | isPrivate
  deriving DecidableEq, Repr

inductive DeclarationKind where
  | isClass
  | isTrait
  deriving DecidableEq, Repr

structure Method where
  name : String
  visibility : Visibility
  isAbstract : Bool
  isStatic : Bool
  deriving DecidableEq, Repr

/-- Public methods with a body are the ones to test. -/
def Method.isTestable (m : Method) : Bool :=
  m.visibility == .isPublic && !m.isAbstract

structure Declaration where
  name : String
  /-- The namespace in effect, without a leading backslash. -/
  namesp : Option String
  kind : DeclarationKind
  /-- The methods in source order, no two of one name up to ASCII case. -/
  methods : List Method
  /-- The byte range, if the declaration stems from the source. -/
  span : Option Span
  deriving DecidableEq, Repr

def Declaration.testable (d : Declaration) : List Method :=
  d.methods.filter Method.isTestable

def Declaration.qualifiedName (d : Declaration) : String :=
  match d.namesp with
  | some n => if n.isEmpty then d.name else n ++ "\\" ++ d.name
  | none => d.name

namespace SyntaxTree

/-- The name of a node, if it has one that is not blank. -/
def declaredName (t : SyntaxTree) (id : Nat) : Option String :=
  (t.childByField id "name").bind fun c =>
    let name := Text.trim (t.text c)
    if name.isEmpty then none else some name

def visibilityOf (text : String) : Visibility :=
  let text := Text.asciiLower text
  -- The modifier may hold more than the word, as in `private(set)`.
  if Text.contains text "private" then .isPrivate
  else if Text.contains text "protected" then .isProtected
  else .isPublic

/-- The visibility of a method; the last modifier counts, and without one a method is public. -/
def methodVisibility (t : SyntaxTree) (id : Nat) : Visibility :=
  match (t.childrenOfKind id "visibility_modifier").getLast? with
  | some c => visibilityOf (t.text c)
  | none => .isPublic

def method? (t : SyntaxTree) (id : Nat) : Option Method :=
  (t.declaredName id).map fun name =>
    { name
      visibility := t.methodVisibility id
      isAbstract := (t.children id).any fun c => t.kind c == "abstract_modifier"
      isStatic := (t.children id).any fun c => t.kind c == "static_modifier" }

/-- Keeps the first method of each name up to ASCII case, other than the names already seen. -/
def firstOfName (seen : List String) : List Method → List Method
  | [] => []
  | m :: ms =>
    let key := Text.asciiLower m.name
    if seen.contains key then firstOfName seen ms else m :: firstOfName (key :: seen) ms

def methods (t : SyntaxTree) (body : Nat) : List Method :=
  firstOfName [] ((t.childrenOfKind body "method_declaration").filterMap t.method?)

def declarationKind? (kind : String) : Option DeclarationKind :=
  match kind with
  | "class_declaration" => some .isClass
  | "trait_declaration" => some .isTrait
  | _ => none

/-- The class or trait that a node declares in a namespace, if it is one and has a name. -/
def declaration? (t : SyntaxTree) (namesp : Option String) (id : Nat) : Option Declaration :=
  (declarationKind? (t.kind id)).bind fun kind =>
    (t.declaredName id).map fun name =>
      { name, namesp, kind
        methods := ((t.childByField id "body").map t.methods).getD []
        span := (t.node id).span }

/-- A namespace as it counts: without blanks and without backslashes at the front. -/
def cleanNamespace (text : String) : String :=
  .ofList ((text.toList.filter (!Text.isBlank ·)).dropWhile (· == '\\'))

def namedNamespace (t : SyntaxTree) (id : Nat) : Option String :=
  (t.childByField id "name").map fun c => cleanNamespace (t.text c)

/-- The nodes to look at below a node, with their namespaces: a definition with a body holds for
that body, one without for the siblings behind it. -/
def scopes (t : SyntaxTree) : Option String → List Nat → List (Nat × Option String)
  | _, [] => []
  | namesp, c :: cs =>
    if t.kind c == "namespace_definition" then
      match t.childByField c "body" with
      | some body => (body, t.namedNamespace c) :: t.scopes namesp cs
      | none => t.scopes (t.namedNamespace c) cs
    else (c, namesp) :: t.scopes namesp cs

/-- The declarations at and below a node in a namespace, down to a depth. -/
def declarationsTo (t : SyntaxTree) : Nat → Nat → Option String → List Declaration
  | 0, _, _ => []
  | depth + 1, id, namesp =>
    (t.declaration? namesp id).toList ++
      (t.scopes namesp (t.children id)).flatMap fun (c, n) => t.declarationsTo depth c n

/-- The named classes and traits of a tree in source order, nested ones included. -/
def declarations (t : SyntaxTree) : List Declaration :=
  t.declarationsTo (t.size + 1) root none

end SyntaxTree

end Scaffold
