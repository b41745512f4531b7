import Scaffold.Text.Blank

namespace Scaffold

inductive Component where
  | root
  | here
  | up
  | name (text : String)
  deriving DecidableEq, Repr, Inhabited

namespace Component

def text : Component → String
  | root => "/"
  | here => "."
  | up => ".."
  | name t => t

/-- The order in which steps sort: the root, a dot, two dots, names by their characters. -/
def rank : Component → Nat
  | root => 0
  | here => 1
  | up => 2
  | name _ => 3

def cmp (a b : Component) : Ordering :=
  (compare a.rank b.rank).then (compare a.text b.text)

/-- Compares two lists of steps, the first difference deciding. -/
def cmpAll : List Component → List Component → Ordering
  | [], [] => .eq
  | [], _ :: _ => .lt
  | _ :: _, [] => .gt
  | a :: as, b :: bs => (a.cmp b).then (cmpAll as bs)

def name? : Component → Option String
  | name t => some t
  | _ => none

end Component

/-- A path as it is typed. -/
structure Path where
  text : String
  deriving DecidableEq, Repr, Inhabited

namespace Path

def isAbsolute (p : Path) : Bool :=
  p.text.toList.head? == some '/'

/-- The texts between slashes. -/
def pieces (p : Path) : List String :=
  (Text.splitWhere (· == '/') p.text.toList).map String.ofList

/-- The step that a text between slashes stands for, if it counts. -/
def step? (piece : String) : Option Component :=
  if piece.isEmpty || piece == "." then none
  else if piece == ".." then some .up
  else some (.name piece)

def components (p : Path) : List Component :=
  let steps := p.pieces.filterMap step?
  if p.isAbsolute then .root :: steps
  else if p.pieces.head? == some "." then .here :: steps
  else steps

/-- Whether two paths have the same steps. -/
def same (p q : Path) : Bool :=
  p.components == q.components

/-- The other path seen from this one: an absolute path stands for itself. -/
def join (p q : Path) : Path :=
  if q.isAbsolute then q
  else if p.text.isEmpty || p.text.toList.getLast? == some '/' then ⟨p.text ++ q.text⟩
  else ⟨p.text ++ "/" ++ q.text⟩

/-- The steps of the directory that holds a path's last step. -/
def parentComponents (p : Path) : List Component :=
  p.components.dropLast

/-- The last step, if it is a name. -/
def fileName? (p : Path) : Option String :=
  p.components.getLast?.bind Component.name?

/-- The end of the file name behind its last dot, if something stands before that dot. -/
def extension? (p : Path) : Option String :=
  p.fileName?.bind fun name =>
    let tail := name.toList.reverse.takeWhile (· != '.')
    let rest := name.toList.length - tail.length
    -- A dot at the front belongs to the name.
    if rest ≤ 1 then none else some (.ofList tail.reverse)

/-- The steps behind those of a base, if the base's steps come first. -/
def componentsBelow? (base : Path) (steps : List Component) : Option (List Component) :=
  if base.components.isPrefixOf steps then some (steps.drop base.components.length) else none

def ofComponents (steps : List Component) : Path :=
  match steps with
  | .root :: rest => ⟨"/" ++ "/".intercalate (rest.map Component.text)⟩
  | steps => ⟨"/".intercalate (steps.map Component.text)⟩

def cmp (p q : Path) : Ordering :=
  Component.cmpAll p.components q.components

end Path

end Scaffold
