import Scaffold.Tree.Lowering
import Scaffold.Proofs.Tree.Descent

namespace Scaffold
set_option autoImplicit true

variable {t : SyntaxTree}

namespace SyntaxTree

/-- The nodes are numbered in preorder and know their parents. -/
structure Preordered (t : SyntaxTree) : Prop where
  ascending : t.Ascending
  parent_of_mem : ∀ {i c}, c ∈ t.children i → (t.node c).parent = some i
  preorder_eq : t.preorder = List.range t.size

theorem node_of_getElem? (h : t.nodes[i]? = some n) : t.node i = n := by
  rw [node, h]
  rfl

theorem node_of_size_le (h : t.size ≤ i) : t.node i = default := by
  rw [node, Array.getElem?_eq_none h]
  rfl

theorem lt_size_of_mem_children (h : c ∈ t.children i) : i < t.size := by
  by_contra hi
  rw [children, node_of_size_le (Nat.le_of_not_lt hi)] at h
  cases h

theorem Preordered.mem_preorder (h : Preordered t) : i ∈ t.preorder ↔ i < t.size := by
  rw [h.preorder_eq, List.mem_range]

end SyntaxTree

namespace Concrete

def headNode (parent : Option Nat) (field : Option String) (leading span : Span) (i : Nat) :
    Concrete → SyntaxNode
  | node kind named _ _ cs =>
    let stop := cs.foldl advance span.start
    { kind, named, field, parent
      span := some span
      leading := some leading
      trailing := if cs.isEmpty then none else some ⟨stop, max span.stop stop⟩
      children := indices (i + 1) cs }

mutual

/-- The arena holds a concrete tree from the index `i` on. -/
def Laid (t : SyntaxTree) (parent : Option Nat) (field : Option String) (leading span : Span)
    (i : Nat) : Concrete → Prop
  | node kind named label own cs =>
    t.nodes[i]? = some (headNode parent field leading span i (node kind named label own cs)) ∧
      LaidAll t (fieldSpans cs) i span.start (i + 1) cs

def LaidAll (t : SyntaxTree) (fields : List (String × Span)) (parent cursor next : Nat) :
    List Concrete → Prop
  | [] => True
  | c :: cs =>
    Laid t (some parent) (fieldAt fields c.span) ⟨cursor, max c.span.start cursor⟩ c.span next c ∧
      LaidAll t fields parent (advance cursor c) (next + c.size) cs

end

mutual

theorem length_lowerNode (parent : Option Nat) (field : Option String) (leading span : Span)
    (i : Nat) : ∀ c : Concrete, (lowerNode parent field leading span i c).length = c.size
  | node kind named label own cs => by
    rw [lowerNode, List.length_cons, length_lowerAll, size, Nat.add_comm]

theorem length_lowerAll (fields : List (String × Span)) (parent cursor next : Nat) :
    ∀ cs : List Concrete, (lowerAll fields parent cursor next cs).length = sizeAll cs
  | [] => rfl
  | c :: cs => by
    rw [lowerAll, List.length_append, length_lowerNode, length_lowerAll, sizeAll]

end

mutual

theorem laid_of_lowerNode : ∀ {c : Concrete} {parent field leading span i},
    (∀ k n, (lowerNode parent field leading span i c)[k]? = some n → t.nodes[i + k]? = some n) →
      Laid t parent field leading span i c
  | node kind named label own cs, parent, field, leading, span, i, h => by
    refine ⟨h 0 _ rfl, laidAll_of_lowerAll ?_⟩
    intro k n hk
    have hn := h (k + 1) n hk
    rwa [Nat.add_comm k 1, ← Nat.add_assoc] at hn

theorem laidAll_of_lowerAll : ∀ {cs : List Concrete} {fields parent cursor next},
    (∀ k n, (lowerAll fields parent cursor next cs)[k]? = some n → t.nodes[next + k]? = some n) →
      LaidAll t fields parent cursor next cs
  | [], _, _, _, _, _ => True.intro
  | c :: cs, fields, parent, cursor, next, h => by
    rw [lowerAll] at h
    refine ⟨laid_of_lowerNode ?_, laidAll_of_lowerAll ?_⟩
    · intro k n hk
      apply h k n
      obtain ⟨hlt, he⟩ := List.getElem?_eq_some_iff.mp hk
      rw [List.getElem?_append_left hlt, hk]
    · intro k n hk
      have hn := h (c.size + k) n
      rw [List.getElem?_append_right (by rw [length_lowerNode]; omega), length_lowerNode,
        Nat.add_sub_cancel_left] at hn
      rw [Nat.add_assoc]
      exact hn hk

end

theorem size_lower (origin source : String) (c : Concrete) :
    (c.lower origin source).size = c.size := by
  rw [lower, SyntaxTree.size, List.size_toArray, length_lowerNode]

theorem laid_lower (origin source : String) (c : Concrete) :
    Laid (c.lower origin source) none none ⟨0, 0⟩ ⟨0, source.utf8ByteSize⟩ 0 c := by
  apply laid_of_lowerNode
  intro k n hk
  rw [lower, Nat.zero_add, List.getElem?_toArray]
  exact hk

theorem Laid.node_eq {c : Concrete} {span : Span} (h : Laid t parent field leading span i c) :
    t.node i = headNode parent field leading span i c := by
  cases c with
  | node kind named label own cs => exact SyntaxTree.node_of_getElem? h.1

theorem Laid.children_eq {c : Concrete} {span : Span} (h : Laid t parent field leading span i c) :
    t.children i = indices (i + 1) c.children := by
  rw [SyntaxTree.children, h.node_eq]
  cases c
  rfl

theorem Laid.parent_eq {c : Concrete} {span : Span} (h : Laid t parent field leading span i c) :
    (t.node i).parent = parent := by
  rw [h.node_eq]
  cases c
  rfl

theorem Laid.kind_eq {c : Concrete} {span : Span} (h : Laid t parent field leading span i c) :
    t.kind i = c.kind := by
  rw [SyntaxTree.kind, h.node_eq]
  cases c
  rfl

theorem LaidAll.map_kind (h : LaidAll t fields parent cursor next cs) :
    (indices next cs).map t.kind = cs.map kind := by
  induction cs generalizing cursor next with
  | nil => rfl
  | cons c cs ih => rw [indices, List.map_cons, List.map_cons, h.1.kind_eq, ih h.2]

theorem indices_append (next : Nat) (cs ds : List Concrete) :
    indices next (cs ++ ds) = indices next cs ++ indices (next + sizeAll cs) ds := by
  induction cs generalizing next with
  | nil => rfl
  | cons c cs ih => rw [List.cons_append, indices, ih, sizeAll, Nat.add_assoc]; rfl

theorem LaidAll.of_append (h : LaidAll t fields parent cursor next (cs ++ ds)) :
    LaidAll t fields parent cursor next cs ∧
      ∃ cursor', LaidAll t fields parent cursor' (next + sizeAll cs) ds := by
  induction cs generalizing cursor next with
  | nil => exact ⟨trivial, cursor, h⟩
  | cons c cs ih =>
    obtain ⟨hfront, cursor', hback⟩ := ih h.2
    rw [sizeAll, ← Nat.add_assoc]
    exact ⟨⟨h.1, hfront⟩, cursor', hback⟩

mutual

/-- Every index of a laid tree is the place of a tree below it, of which holds what is passed on to
children. -/
theorem Laid.exists_at {P : Span → Concrete → Prop}
    (hP : ∀ {s c d}, P s c → d ∈ c.children → P d.span d) :
    ∀ {c : Concrete} {parent field leading span i}, Laid t parent field leading span i c →
      P span c → i ≤ j → j < i + c.size →
      ∃ d parent field leading span, Laid t parent field leading span j d ∧ P span d
  | node kind named label own cs, parent, field, leading, span, i, h, hc, hi, hj => by
    by_cases he : j = i
    · subst j
      exact ⟨_, _, _, _, _, h, hc⟩
    · rw [size] at hj
      exact h.2.exists_at hP (fun _ => hP hc) (by omega) (by omega)

theorem LaidAll.exists_at {P : Span → Concrete → Prop}
    (hP : ∀ {s c d}, P s c → d ∈ c.children → P d.span d) :
    ∀ {cs : List Concrete} {fields parent cursor next}, LaidAll t fields parent cursor next cs →
      (∀ c ∈ cs, P c.span c) → next ≤ j → j < next + sizeAll cs →
      ∃ d parent field leading span, Laid t parent field leading span j d ∧ P span d
  | [], _, _, _, _, _, _, hi, hj => by
    rw [sizeAll] at hj
    omega
  | c :: cs, fields, parent, cursor, next, h, hcs, hi, hj => by
    obtain ⟨hc, hcs⟩ := List.forall_mem_cons.mp hcs
    rw [sizeAll] at hj
    by_cases hlt : j < next + c.size
    · exact h.1.exists_at hP hc hi hlt
    · exact h.2.exists_at hP hcs (by omega) (by omega)

end

theorem one_le_size (c : Concrete) : 1 ≤ c.size := by
  cases c
  simp only [size]
  omega

theorem bounds_of_mem_indices (h : x ∈ indices next cs) : next ≤ x ∧ x < next + sizeAll cs := by
  induction cs generalizing next with
  | nil => cases h
  | cons c cs ih =>
    have hc := one_le_size c
    rw [sizeAll]
    rcases List.mem_cons.mp h with rfl | h
    · omega
    · have hx := ih h
      omega

theorem LaidAll.parent_eq (h : LaidAll t fields parent cursor next cs) (hx : x ∈ indices next cs) :
    (t.node x).parent = some parent := by
  induction cs generalizing cursor next with
  | nil => cases hx
  | cons c cs ih =>
    rcases List.mem_cons.mp hx with rfl | hx
    · exact h.1.parent_eq
    · exact ih h.2 hx

mutual

/-- The children of every node of a laid tree stand behind it, inside the tree, and point to it. -/
theorem Laid.child_of_mem : ∀ {c : Concrete} {parent field leading span i},
    Laid t parent field leading span i c → i ≤ j → j < i + c.size → x ∈ t.children j →
      j < x ∧ x < i + c.size ∧ (t.node x).parent = some j
  | node kind named label own cs, parent, field, leading, span, i, h, hi, hj, hx => by
    rw [size] at hj ⊢
    by_cases he : j = i
    · subst j
      rw [h.children_eq, children] at hx
      have hb := bounds_of_mem_indices hx
      exact ⟨by omega, by omega, h.2.parent_eq hx⟩
    · have hb := h.2.child_of_mem (by omega) (by omega) hx
      exact ⟨hb.1, by omega, hb.2.2⟩

theorem LaidAll.child_of_mem : ∀ {cs : List Concrete} {fields parent cursor next},
    LaidAll t fields parent cursor next cs → next ≤ j → j < next + sizeAll cs →
      x ∈ t.children j → j < x ∧ x < next + sizeAll cs ∧ (t.node x).parent = some j
  | [], _, _, _, _, _, hi, hj, _ => by
    rw [sizeAll] at hj
    omega
  | c :: cs, fields, parent, cursor, next, h, hi, hj, hx => by
    rw [sizeAll] at hj ⊢
    by_cases hlt : j < next + c.size
    · have hb := h.1.child_of_mem hi hlt hx
      exact ⟨hb.1, by omega, hb.2.2⟩
    · have hb := h.2.child_of_mem (by omega) (by omega) hx
      exact ⟨hb.1, by omega, hb.2.2⟩

end

theorem lower_child_of_mem (h : x ∈ (lower origin source c).children j) :
    j < x ∧ x < (lower origin source c).size ∧
      ((lower origin source c).node x).parent = some j := by
  have hj := SyntaxTree.lt_size_of_mem_children h
  rw [size_lower] at hj ⊢
  have hb := (laid_lower origin source c).child_of_mem (Nat.zero_le j) (by omega) h
  rwa [Nat.zero_add] at hb

theorem lower_ascending (origin source : String) (c : Concrete) :
    (c.lower origin source).Ascending := fun _ _ hx =>
  ⟨(lower_child_of_mem hx).1, (lower_child_of_mem hx).2.1⟩

mutual

theorem Laid.preorderFrom_eq (ha : t.Ascending) : ∀ {c : Concrete} {parent field leading span i},
    Laid t parent field leading span i c → t.preorderFrom i = List.range' i c.size
  | node kind named label own cs, parent, field, leading, span, i, h => by
    rw [ha.ranked.preorderFrom_eq, h.children_eq, size, Nat.add_comm 1, List.range'_succ]
    exact congrArg _ (h.2.preorderFrom_eq ha)

theorem LaidAll.preorderFrom_eq (ha : t.Ascending) :
    ∀ {cs : List Concrete} {fields parent cursor next},
    LaidAll t fields parent cursor next cs →
      (indices next cs).flatMap t.preorderFrom = List.range' next (sizeAll cs)
  | [], _, _, _, _, _ => rfl
  | c :: cs, fields, parent, cursor, next, h => by
    rw [indices, List.flatMap_cons, h.1.preorderFrom_eq ha, h.2.preorderFrom_eq ha, sizeAll,
      List.range'_append_1]

end

/-- Lowering numbers the nodes of a concrete tree in preorder. -/
theorem lower_preordered (origin source : String) (c : Concrete) :
    (c.lower origin source).Preordered where
  ascending := lower_ascending origin source c
  parent_of_mem := fun hx => (lower_child_of_mem hx).2.2
  preorder_eq := by
    rw [SyntaxTree.preorder, SyntaxTree.root, size_lower, List.range_eq_range']
    exact (laid_lower origin source c).preorderFrom_eq (lower_ascending origin source c)

end Concrete

end Scaffold
