import Mathlib.Data.List.Basic
import Scaffold.Tree.Arena

namespace Scaffold.SyntaxTree
set_option autoImplicit true

theorem exists_mem_zip {l : List α} {l' : List β} (h : l.length = l'.length) (hx : x ∈ l) :
    ∃ y ∈ l', (x, y) ∈ l.zip l' := by
  rw [← List.map_fst_zip (Nat.le_of_eq h)] at hx
  obtain ⟨⟨x', y⟩, hm, rfl⟩ := List.mem_map.mp hx
  exact ⟨y, (List.of_mem_zip hm).2, hm⟩

/-- Every child is lower than its parent, and no node is higher than the number of nodes. -/
structure Ranked (t : SyntaxTree) (height : Nat → Nat) : Prop where
  child_lt : ∀ {i c}, c ∈ t.children i → height c < height i
  le_size : ∀ i, height i ≤ t.size

theorem preorderTo_eq (h : Ranked t height) (hd : height i < d) (hd' : height i < d') :
    t.preorderTo d i = t.preorderTo d' i := by
  induction d generalizing i d' with
  | zero => omega
  | succ d ih =>
    cases d' with
    | zero => omega
    | succ d' =>
      simp only [preorderTo, List.cons.injEq, true_and]
      apply List.flatMap_congr
      intro c hc
      have hlt := h.child_lt hc
      exact ih (by omega) (by omega)

theorem Ranked.preorderFrom_eq (h : Ranked t height) (i : Nat) :
    t.preorderFrom i = i :: (t.children i).flatMap t.preorderFrom := by
  have hs := h.le_size i
  rw [preorderFrom, preorderTo]
  congr 1
  apply List.flatMap_congr
  intro c hc
  have hlt := h.child_lt hc
  exact preorderTo_eq h (by omega) (by omega)

theorem mem_preorderFrom_self (t : SyntaxTree) (i : Nat) : i ∈ t.preorderFrom i :=
  List.mem_cons_self

theorem Ranked.mem_preorderFrom_child (h : Ranked t height) (hc : c ∈ t.children i)
    (hx : x ∈ t.preorderFrom c) : x ∈ t.preorderFrom i := by
  rw [h.preorderFrom_eq i]
  exact List.mem_cons_of_mem _ (List.mem_flatMap.mpr ⟨c, hc, hx⟩)

/-- A property of all nodes that passes from the children of a node to the node. -/
theorem Ranked.induction {P : Nat → Prop} (h : Ranked t height)
    (step : ∀ i, (∀ c ∈ t.children i, P c) → P i) (i : Nat) : P i := by
  induction hn : height i using Nat.strongRecOn generalizing i with
  | ind n ih =>
    apply step
    intro c hc
    exact ih (height c) (hn ▸ h.child_lt hc) c rfl

theorem Ranked.exists_parent (h : Ranked t height) (i : Nat) :
    ∀ x ∈ t.preorderFrom i, x = i ∨ ∃ y ∈ t.preorderFrom i, x ∈ t.children y := by
  induction i using h.induction with
  | step i ih =>
    intro x hx
    rw [h.preorderFrom_eq, List.mem_cons, List.mem_flatMap] at hx
    rcases hx with rfl | ⟨c, hc, hx⟩
    · exact .inl rfl
    · rcases ih c hc x hx with rfl | ⟨y, hy, hxy⟩
      · exact .inr ⟨i, t.mem_preorderFrom_self i, hc⟩
      · exact .inr ⟨y, h.mem_preorderFrom_child hc hy, hxy⟩

/-- Children stand behind their parents, and no child is out of range. -/
def Ascending (t : SyntaxTree) : Prop :=
  ∀ i, ∀ c ∈ t.children i, i < c ∧ c < t.size

theorem Ascending.ranked (h : Ascending t) : Ranked t fun i => t.size - i where
  child_lt := by
    intro i c hc
    have hlt := h i c hc
    omega
  le_size := fun i => Nat.sub_le _ _

theorem Ascending.mem_preorderFrom_child (h : Ascending t) (hc : c ∈ t.children i)
    (hx : x ∈ t.preorderFrom c) : x ∈ t.preorderFrom i :=
  h.ranked.mem_preorderFrom_child hc hx

theorem Ascending.induction {P : Nat → Prop} (h : Ascending t)
    (step : ∀ i, (∀ c ∈ t.children i, P c) → P i) (i : Nat) : P i :=
  h.ranked.induction step i

end Scaffold.SyntaxTree
