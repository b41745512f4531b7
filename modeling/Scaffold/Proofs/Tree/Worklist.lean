import Mathlib.Algebra.Ring.Nat
import Scaffold.Proofs.Tree.Lowering

namespace Scaffold.Concrete
set_option autoImplicit true

/-- A node that waits to be copied, with what its copy will know of its place. -/
structure Pending where
  node : Concrete
  parent : Option Nat
  field : Option String
  leading : Span
  span : Span

def pendingAll (fields : List (String × Span)) (parent cursor : Nat) :
    List Concrete → List Pending
  | [] => []
  | c :: cs =>
    ⟨c, some parent, fieldAt fields c.span, ⟨cursor, max c.span.start cursor⟩, c.span⟩ ::
      pendingAll fields parent (advance cursor c) cs

def Pending.copy (p : Pending) : SyntaxNode :=
  let stop := p.node.children.foldl advance p.span.start
  { kind := p.node.kind
    named := p.node.named
    field := p.field
    parent := p.parent
    span := some p.span
    leading := some p.leading
    trailing := if p.node.children.isEmpty then none else some ⟨stop, max p.span.stop stop⟩ }

def addChildren (nodes : Array SyntaxNode) (parent : Option Nat) (ids : List Nat) :
    Array SyntaxNode :=
  match parent with
  | none => nodes
  | some i => nodes.modify i fun n => { n with children := n.children ++ ids }

theorem sizeAll_eq_sum (fields : List (String × Span)) (parent cursor : Nat)
    (cs : List Concrete) :
    ((pendingAll fields parent cursor cs).map (·.node.size)).sum = sizeAll cs := by
  induction cs generalizing cursor with
  | nil => rfl
  | cons c cs ih => rw [pendingAll, List.map_cons, List.sum_cons, ih, sizeAll]

theorem size_eq (c : Concrete) : c.size = 1 + sizeAll c.children := by
  cases c
  rw [size, children]

/-- Copies the nodes that wait on a stack, and what is below them, behind the nodes copied so
far. -/
def copyAll (nodes : Array SyntaxNode) : List Pending → Array SyntaxNode
  | [] => nodes
  | p :: stack =>
    copyAll ((addChildren nodes p.parent [nodes.size]).push p.copy)
      (pendingAll (fieldSpans p.node.children) nodes.size p.span.start p.node.children ++ stack)
termination_by stack => (stack.map (·.node.size)).sum
decreasing_by
  rw [List.map_append, List.sum_append, sizeAll_eq_sum, List.map_cons, List.sum_cons,
    size_eq p.node]
  omega

theorem modify_append {xs : Array α} (h : i < xs.size) (ys : Array α) (f : α → α) :
    (xs ++ ys).modify i f = xs.modify i f ++ ys := by
  apply Array.ext_getElem?
  intro j
  grind

theorem modify_push_size (xs : Array α) (x : α) (f : α → α) :
    (xs.push x).modify xs.size f = xs.push (f x) := by
  apply Array.ext_getElem?
  intro j
  grind

theorem modify_modify (xs : Array α) (i : Nat) (f g : α → α) :
    (xs.modify i f).modify i g = xs.modify i fun x => g (f x) := by
  apply Array.ext_getElem?
  intro j
  simp only [Array.getElem?_modify]
  split <;> simp [Function.comp_def]

@[simp]
theorem size_addChildren (nodes : Array SyntaxNode) (parent : Option Nat) (ids : List Nat) :
    (addChildren nodes parent ids).size = nodes.size := by
  cases parent with
  | none => rfl
  | some i => exact Array.size_modify

theorem addChildren_nil (nodes : Array SyntaxNode) (i : Nat) :
    addChildren nodes (some i) [] = nodes := by
  apply Array.ext_getElem?
  intro j
  rw [addChildren, Array.getElem?_modify]
  split <;> simp

theorem addChildren_addChildren (h : i < nodes.size) (ids ids' : List Nat)
    (more : Array SyntaxNode) :
    addChildren (addChildren nodes (some i) ids ++ more) (some i) ids' =
      addChildren nodes (some i) (ids ++ ids') ++ more := by
  have hlt : i < (addChildren nodes (some i) ids).size := by simpa using h
  rw [addChildren, modify_append hlt, addChildren, modify_modify, addChildren]
  simp only [List.append_assoc]

mutual

theorem copyAll_node : ∀ (c : Concrete) (nodes : Array SyntaxNode) (parent : Option Nat)
    (field : Option String) (leading span : Span) (stack : List Pending),
    copyAll nodes (⟨c, parent, field, leading, span⟩ :: stack) =
      copyAll (addChildren nodes parent [nodes.size] ++
        (lowerNode parent field leading span nodes.size c).toArray) stack
  | node kind named label own cs, nodes, parent, field, leading, span, stack => by
    have hsize : (addChildren nodes parent [nodes.size]).size = nodes.size := size_addChildren ..
    have hhead := modify_push_size (addChildren nodes parent [nodes.size])
      (Pending.copy ⟨node kind named label own cs, parent, field, leading, span⟩)
      (fun n => { n with children := n.children ++ indices (nodes.size + 1) cs })
    have hlower : (lowerNode parent field leading span nodes.size
        (node kind named label own cs)).toArray =
        #[headNode parent field leading span nodes.size (node kind named label own cs)] ++
          (lowerAll (fieldSpans cs) nodes.size span.start (nodes.size + 1) cs).toArray :=
      List.toArray_cons ..
    rw [hsize] at hhead
    rw [copyAll, children, copyAll_pendingAll cs _ _ _ _ _ (by simp), addChildren,
      Array.size_push, hsize, hhead, Array.push_eq_append, Array.append_assoc, hlower]
    rfl

theorem copyAll_pendingAll : ∀ (cs : List Concrete) (nodes : Array SyntaxNode)
    (fields : List (String × Span)) (parent cursor : Nat) (stack : List Pending),
    parent < nodes.size →
      copyAll nodes (pendingAll fields parent cursor cs ++ stack) =
        copyAll (addChildren nodes (some parent) (indices nodes.size cs) ++
          (lowerAll fields parent cursor nodes.size cs).toArray) stack
  | [], nodes, fields, parent, cursor, stack, _ => by
    simp [pendingAll, indices, lowerAll, addChildren_nil]
  | c :: cs, nodes, fields, parent, cursor, stack, h => by
    have hsize : (addChildren nodes (some parent) [nodes.size] ++
        (lowerNode (some parent) (fieldAt fields c.span) ⟨cursor, max c.span.start cursor⟩ c.span
          nodes.size c).toArray).size = nodes.size + c.size := by
      simp [length_lowerNode]
    rw [pendingAll, List.cons_append, copyAll_node,
      copyAll_pendingAll cs _ _ _ _ _ (by omega), hsize, addChildren_addChildren h, indices,
      lowerAll, List.singleton_append, Array.append_assoc, List.append_toArray (lowerNode ..)]

end

/-- Copying with a stack makes the same arena as the recursion over the tree. -/
theorem copyAll_eq_lower (origin source : String) (c : Concrete) :
    copyAll #[] [⟨c, none, none, ⟨0, 0⟩, ⟨0, source.utf8ByteSize⟩⟩] =
      (c.lower origin source).nodes := by
  rw [copyAll_node, copyAll, addChildren, lower]
  simp

end Scaffold.Concrete
