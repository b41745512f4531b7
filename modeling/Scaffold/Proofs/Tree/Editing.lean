import Scaffold.Proofs.Tree.Lowering

namespace Scaffold
set_option autoImplicit true

def SyntaxNode.replaced (n : SyntaxNode) (text : String) : SyntaxNode :=
  { n with span := none, trailing := none, replacement := some text, children := [] }

namespace SyntaxTree

variable {t m : SyntaxTree}

theorem text_of_replacement {x : String} (h : (t.node i).replacement = some x) :
    t.text i = x := by
  rw [text, textTo, h]

theorem text_of_span (hn : m.node i = t.node i) (hs : m.source = t.source)
    (h : (t.node i).span ≠ none) : m.text i = t.text i := by
  obtain ⟨s, hsp⟩ := Option.ne_none_iff_exists'.mp h
  rw [text, text, textTo, textTo, hn, hs, hsp]
  cases (t.node i).replacement <;> rfl

@[simp]
theorem size_modify (t : SyntaxTree) (i : Nat) (f : SyntaxNode → SyntaxNode) :
    (t.modify i f).size = t.size :=
  Array.size_modify

theorem node_modify_self (h : i < t.size) (f : SyntaxNode → SyntaxNode) :
    (t.modify i f).node i = f (t.node i) := by
  rw [node, node, modify, Array.getElem?_modify, if_pos rfl, Array.getElem?_eq_getElem h]
  rfl

theorem node_modify_of_ne (h : i ≠ j) (f : SyntaxNode → SyntaxNode) :
    (t.modify j f).node i = t.node i := by
  rw [node, node, modify, Array.getElem?_modify, if_neg h.symm]

@[simp]
theorem size_push (t : SyntaxTree) (n : SyntaxNode) : (t.push n).size = t.size + 1 :=
  Array.size_push n

theorem node_push_self (t : SyntaxTree) (n : SyntaxNode) : (t.push n).node t.size = n :=
  node_of_getElem? (by rw [push, size, Array.getElem?_push_size])

theorem node_push_of_lt (h : i < t.size) (n : SyntaxNode) : (t.push n).node i = t.node i := by
  have hne : i ≠ t.nodes.size := Nat.ne_of_lt h
  rw [node, node, push, Array.getElem?_push, if_neg hne]

@[simp]
theorem size_replaceWithText (t : SyntaxTree) (i : Nat) (text : String) :
    (t.replaceWithText i text).size = t.size :=
  size_modify ..

theorem node_replaceWithText_self (h : i < t.size) (text : String) :
    (t.replaceWithText i text).node i = (t.node i).replaced text :=
  node_modify_self h _

theorem node_replaceWithText_of_ne (h : i ≠ j) (text : String) :
    (t.replaceWithText j text).node i = t.node i :=
  node_modify_of_ne h _

@[simp]
theorem size_insertChild (t : SyntaxTree) (parent index child : Nat) :
    (t.insertChild parent index child).size = t.size := by
  rw [insertChild, size_modify, adopt, size_modify]

theorem node_insertChild_of_ne (hp : i ≠ parent) (hc : i ≠ child) (index : Nat) :
    (t.insertChild parent index child).node i = t.node i := by
  rw [insertChild, node_modify_of_ne hp, adopt, node_modify_of_ne hc]

theorem node_insertChild_parent (hp : parent < t.size) (hc : parent ≠ child) (index : Nat) :
    (t.insertChild parent index child).node parent =
      { t.node parent with children := (t.children parent).insertIdx index child } := by
  rw [insertChild, adopt, node_modify_self (by simpa using hp), node_modify_of_ne hc]
  rfl

theorem node_insertChild_child (hc : child < t.size) (hp : child ≠ parent) (index : Nat) :
    (t.insertChild parent index child).node child =
      { t.node child with parent := some parent } := by
  rw [insertChild, node_modify_of_ne hp, adopt, node_modify_self hc]

end SyntaxTree

end Scaffold
