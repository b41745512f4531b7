import Std.Data.HashMap
import Scaffold.Tree.Arena
import Scaffold.Text.Blank

namespace Scaffold

/-- What printing needs: the edited tree, the unedited one, and the nodes of the latter by range
and kind. -/
structure Printer where
  tree : SyntaxTree
  unedited : SyntaxTree
  index : Std.HashMap (Nat × Nat × String) Nat

namespace Printer

def indentUnit : String := "    "

/-- Gathers the nodes of the unedited tree; of several with one range and kind the last counts. -/
def between (tree unedited : SyntaxTree) : Printer where
  tree := tree
  unedited := unedited
  index := unedited.preorder.foldl (fun m id =>
    match (unedited.node id).span with
    | some s => m.insert (s.start, s.stop, unedited.kind id) id
    | none => m) ∅

/-- The text between two offsets of the source, if they fit. -/
def slice? (p : Printer) (s : Span) : Option String :=
  s.cut? p.unedited.source

/-- The line end of the source's first line. -/
def newline (p : Printer) : String :=
  let cs := p.unedited.source.toList
  let line := cs.takeWhile (· != '\n')
  if line.length < cs.length && line.getLast? == some '\r' then "\r\n" else "\n"

/-- Whether a node and all below it, down to a depth, are as in the unedited tree. -/
def pristineTo (p : Printer) : Nat → Nat → Bool
  | 0, _ => false
  | depth + 1, id =>
    let n := p.tree.node id
    match n.span.bind fun s => p.index[(s.start, s.stop, n.kind)]? with
    | none => false
    | some other =>
      let theirs := p.unedited.children other
      n.children.length == theirs.length &&
        (n.children.zip theirs).all fun (mine, other) =>
          -- Kinds are compared one level down, where the child is looked up by range and kind.
          (p.tree.node mine).span == (p.unedited.node other).span && p.pristineTo depth mine

def isPristine (p : Printer) (id : Nat) : Bool :=
  p.pristineTo (p.tree.size + 1) id

/-- The blanks and tabs at the start of the line of an offset, up to the offset. -/
def lineIndent (p : Printer) (offset : Nat) : Option String := do
  let before ← p.slice? ⟨0, min offset p.unedited.source.utf8ByteSize⟩
  let line := (before.toList.reverse.takeWhile (· != '\n')).reverse
  return .ofList (line.takeWhile fun c => c == ' ' || c == '\t')

/-- Whether a member's range starts on another line than the one where its parent starts. -/
def onOwnLine (p : Printer) (start : Nat) (member : Span) : Option Bool :=
  if start < member.start then
    (p.slice? ⟨start, member.start⟩).map fun gap => gap.toList.contains '\n'
  else some false

/-- The indentation of a member added behind some siblings, the nearest first: that of the nearest
member if it starts its own line, else one step more than that of the parent's line. -/
def memberIndent (p : Printer) (parent : Nat) (before : List Nat) : Option String := do
  let start := ((p.tree.node parent).span.map (·.start)).getD 0
  let member := before.findSome? fun s =>
    let n := p.tree.node s
    if n.named then n.span else none
  match member with
  | some span =>
    if ← p.onOwnLine start span then p.lineIndent span.start
    else return (← p.lineIndent start) ++ indentUnit
  | none => return (← p.lineIndent start) ++ indentUnit

/-- The words of a method's head, with its parameters behind its name. -/
def methodHead (p : Printer) (id : Nat) : List String :=
  (p.tree.children id).filterMap fun c =>
    match (p.tree.node c).field with
    | some "parameters" => none
    | some "body" => none
    | some "name" =>
      let parameters := ((p.tree.childByField id "parameters").map p.tree.text).getD "()"
      some (p.tree.text c ++ parameters)
    | _ => some (p.tree.text c)

/-- The layout of an added node. -/
def fresh (p : Printer) (id : Nat) (indent : String) : String :=
  if p.tree.kind id != "method_declaration" then p.tree.text id
  else
    let head := " ".intercalate (p.methodHead id)
    if (p.tree.childByField id "body").isSome then
      head ++ p.newline ++ indent ++ "\x7b" ++ p.newline ++ indent ++ "\x7d"
    else head ++ ";"

/-- Prints the children of a node that starts at `start`, those in `before` being printed, the
nearest first. A gap behind an added child gets a line end if it has none. -/
def printChildren (p : Printer) (print : Nat → Option String) (parent start : Nat) :
    List Nat → Bool → List Nat → Option String
  | _, _, [] => some ""
  | before, afterInsert, c :: cs => do
    match (p.tree.node c).leading with
    | some leading =>
      let gap ← p.slice? leading
      let gap ←
        if afterInsert && !gap.toList.contains '\n' then
          pure (p.newline ++ (← p.lineIndent start))
        else pure gap
      let child ← print c
      let rest ← p.printChildren print parent start (c :: before) false cs
      return gap ++ child ++ rest
    | none =>
      -- Only added nodes have no gap before them. Behind another member an empty line sets one off.
      let indent ← p.memberIndent parent before
      let blank := if before.head?.any fun b => (p.tree.node b).named then p.newline else ""
      let rest ← p.printChildren print parent start (c :: before) true cs
      return p.newline ++ blank ++ indent ++ p.fresh c indent ++ rest

def printTo (p : Printer) : Nat → Nat → Option String
  | 0, _ => some ""
  | depth + 1, id =>
    let n := p.tree.node id
    if p.isPristine id then (n.span.map p.slice?).getD (some "")
    else match n.replacement, n.span with
      | some text, _ => some text
      | none, none => (p.lineIndent p.unedited.source.utf8ByteSize).map (p.fresh id)
      | none, some span =>
        if n.children.isEmpty then p.slice? span
        else do
          let inner ← p.printChildren (p.printTo depth) id span.start [] false n.children
          let trailing ← (n.trailing.map p.slice?).getD (some "")
          return inner ++ trailing

end Printer

/-- Prints an edited tree, every byte of the unedited one that was not touched being kept. There
is no result if a range does not fit the source. -/
def SyntaxTree.print? (edited unedited : SyntaxTree) : Option String :=
  (Printer.between edited unedited).printTo (edited.size + 1) SyntaxTree.root

end Scaffold
