import Scaffold.Tree.Arena
import Scaffold.Text.Blank

namespace Scaffold

inductive MergeError where
  | noClass (origin : String)
  deriving DecidableEq, Repr

def MergeError.message : MergeError → String
  | .noClass origin => origin ++ " declares no class to merge into"

namespace SyntaxTree

def classes (t : SyntaxTree) : List Nat :=
  t.preorder.filter fun id => t.kind id == "class_declaration"

def hasClass (t : SyntaxTree) : Bool :=
  !t.classes.isEmpty

/-- The class of the given name, else the first class. -/
def targetClass (t : SyntaxTree) (className : String) : Option Nat :=
  (t.classes.find? fun id =>
    (t.childByField id "name").any fun c => Text.trim (t.text c) == className).or t.classes.head?

def declaresNamespace (t : SyntaxTree) : Bool :=
  t.preorder.any fun id => t.kind id == "namespace_definition"

/-- The parts of the method `public function name() {}`. -/
def stubParts (name : String) : List SyntaxNode :=
  [.leaf "visibility_modifier" "public",
    (SyntaxNode.leaf "function" "function").anonymous,
    (SyntaxNode.leaf "name" name).withField "name",
    (SyntaxNode.leaf "formal_parameters" "()").withField "parameters",
    (SyntaxNode.leaf "compound_statement" "\x7b\x7d").withField "body"]

def pushChild (t : SyntaxTree) (parent : Nat) (n : SyntaxNode) : SyntaxTree :=
  (t.push n).appendChild parent t.size

/-- Adds the method `public function name() {}` without a place in the tree. Its index is the
former size. -/
def pushStub (t : SyntaxTree) (name : String) : SyntaxTree :=
  (stubParts name).foldl (fun u n => u.pushChild t.size n) (t.push (.branch "method_declaration"))

/-- The place before the last closing brace of a body, else its end. -/
def closingIndex (t : SyntaxTree) (body : Nat) : Nat :=
  let cs := t.children body
  match cs.reverse.findIdx? fun c => t.kind c == "\x7d" with
  | some i => cs.length - 1 - i
  | none => cs.length

/-- Adds a stub before the closing brace of a body. -/
def addStub (body : Nat) (t : SyntaxTree) (name : String) : SyntaxTree :=
  let u := t.pushStub name
  u.insertChild body (u.closingIndex body) t.size

/-- What a test class is to become. -/
structure ClassUpdate where
  namesp : String
  className : String
  methods : List String

/-- Puts a text in place of a node's name. -/
def rename (t : SyntaxTree) (id : Nat) (name : String) : SyntaxTree :=
  match t.childByField id "name" with
  | some c => t.replaceWithText c name
  | none => t

/-- Brings one node up to date: a namespace definition or the target class. -/
def ClassUpdate.visit (u : ClassUpdate) (target : Nat) (t : SyntaxTree) (id : Nat) : SyntaxTree :=
  -- Every namespace of the file is set, not only the one around the target.
  if t.kind id == "namespace_definition" then t.rename id u.namesp
  else if id == target then
    let t := t.rename id u.className
    match t.childByField id "body" with
    | some body => u.methods.foldl (addStub body) t
    | none => t
  else t

def update (t : SyntaxTree) (u : ClassUpdate) (target : Nat) : SyntaxTree :=
  t.visitAll (u.visit target)

/-- The tree with its namespaces and its target class renamed and a stub for each method added
to the latter. -/
def merge (t : SyntaxTree) (namesp className : String) (methods : List String) :
    Except MergeError SyntaxTree :=
  match t.targetClass className with
  | some target => .ok (t.update ⟨namesp, className, methods⟩ target)
  | none => .error (.noClass t.origin)

end SyntaxTree

end Scaffold
