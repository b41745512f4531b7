import Mathlib.Data.List.Flatten
import Mathlib.Data.List.Nodup
import Scaffold.Proofs.Tree.Lowering

namespace Scaffold.SyntaxTree
set_option autoImplicit true

variable {t : SyntaxTree}

/-- No path leads back to where it came from, and every child knows the only node that lists it. -/
structure Treelike (t : SyntaxTree) : Prop where
  ranked : ∃ height, Ranked t height
  parent_of_mem : ∀ {i c}, c ∈ t.children i → (t.node c).parent = some i
  children_nodup : ∀ i, (t.children i).Nodup

theorem Ranked.preorderFrom_sublist (h : Ranked t height) (i : Nat) :
    ∀ x ∈ t.preorderFrom i, (t.preorderFrom x).Sublist (t.preorderFrom i) := by
  induction i using h.induction with
  | step i ih =>
    intro x hx
    rw [h.preorderFrom_eq i, List.mem_cons, List.mem_flatMap] at hx
    rcases hx with rfl | ⟨c, hc, hx⟩
    · exact List.Sublist.refl _
    · have hsub := (ih c hc x hx).trans (List.sublist_flatten_of_mem (List.mem_map_of_mem hc))
      rw [h.preorderFrom_eq i]
      exact hsub.cons i

theorem Ranked.height_le (h : Ranked t height) (i : Nat) :
    ∀ x ∈ t.preorderFrom i, height x ≤ height i := by
  induction i using h.induction with
  | step i ih =>
    intro x hx
    rw [h.preorderFrom_eq i, List.mem_cons, List.mem_flatMap] at hx
    rcases hx with rfl | ⟨c, hc, hx⟩
    · exact Nat.le_refl _
    · exact Nat.le_trans (ih c hc x hx) (Nat.le_of_lt (h.child_lt hc))

theorem Ranked.parent_notMem (h : Ranked t height) (hc : c ∈ t.children i) :
    i ∉ t.preorderFrom c := by
  intro hi
  exact Nat.not_lt_of_le (h.height_le c i hi) (h.child_lt hc)

namespace Treelike

theorem mem_preorder_child (h : t.Treelike) (hi : i ∈ t.preorder) (hc : c ∈ t.children i) :
    c ∈ t.preorder := by
  obtain ⟨height, hr⟩ := h.ranked
  exact (hr.preorderFrom_sublist root i hi).subset
    (hr.mem_preorderFrom_child hc (t.mem_preorderFrom_self c))

theorem parent_unique (h : t.Treelike) (hi : c ∈ t.children i) (hj : c ∈ t.children j) : i = j :=
  Option.some.inj ((h.parent_of_mem hi).symm.trans (h.parent_of_mem hj))

theorem disjoint_children (h : t.Treelike) (hb : b ∈ t.children i) (hc : c ∈ t.children i)
    (hne : b ≠ c) : (t.preorderFrom b).Disjoint (t.preorderFrom c) := by
  obtain ⟨height, hr⟩ := h.ranked
  intro x
  -- Going up from a common node leads to another one, until a child is its own sibling.
  induction hn : t.size - height x using Nat.strongRecOn generalizing x with
  | ind n ih =>
    intro hxb hxc
    rcases hr.exists_parent b x hxb with rfl | ⟨y, hy, hxy⟩
    · rcases hr.exists_parent c x hxc with rfl | ⟨z, hz, hxz⟩
      · exact hne rfl
      · obtain rfl := h.parent_unique hb hxz
        exact hr.parent_notMem hc hz
    · rcases hr.exists_parent c x hxc with rfl | ⟨z, hz, hxz⟩
      · obtain rfl := h.parent_unique hc hxy
        exact hr.parent_notMem hb hy
      · obtain rfl := h.parent_unique hxy hxz
        have hlt := hr.child_lt hxy
        have hle := hr.le_size y
        exact ih (t.size - height y) (by omega) rfl hy hz

theorem nodup_preorderFrom (h : t.Treelike) (i : Nat) : (t.preorderFrom i).Nodup := by
  obtain ⟨height, hr⟩ := h.ranked
  induction i using hr.induction with
  | step i ih =>
    rw [hr.preorderFrom_eq, List.nodup_cons, List.nodup_flatMap]
    refine ⟨?_, ih, ?_⟩
    · intro hi
      obtain ⟨c, hc, hic⟩ := List.mem_flatMap.mp hi
      exact hr.parent_notMem hc hic
    · exact (h.children_nodup i).imp_of_mem fun hb hc hne => h.disjoint_children hb hc hne

/-- A walk in preorder meets no node twice. -/
theorem nodup_preorder (h : t.Treelike) : t.preorder.Nodup :=
  h.nodup_preorderFrom root

end Treelike

theorem Preordered.children_nodup (h : Preordered t) (i : Nat) : (t.children i).Nodup := by
  by_cases hi : i < t.size
  · have hnd : (t.preorderFrom i).Nodup := by
      have hall : t.preorder.Nodup := by
        rw [h.preorder_eq]
        exact List.nodup_range
      exact hall.sublist
        (h.ascending.ranked.preorderFrom_sublist root i (h.mem_preorder.mpr hi))
    rw [h.ascending.ranked.preorderFrom_eq, List.nodup_cons, List.nodup_flatMap] at hnd
    refine hnd.2.2.imp ?_
    rintro c d hdis rfl
    have hc := t.mem_preorderFrom_self c
    exact hdis hc hc
  · rw [children, node_of_size_le (Nat.le_of_not_lt hi)]
    exact List.nodup_nil

theorem Preordered.treelike (h : Preordered t) : t.Treelike where
  ranked := ⟨_, h.ascending.ranked⟩
  parent_of_mem := h.parent_of_mem
  children_nodup := h.children_nodup

end Scaffold.SyntaxTree
