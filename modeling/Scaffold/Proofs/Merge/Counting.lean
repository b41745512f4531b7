import Mathlib.Algebra.BigOperators.Ring.List
import Mathlib.Algebra.Order.BigOperators.Group.List
import Mathlib.Algebra.Order.Ring.Nat
import Scaffold.Proofs.Merge.Extraction

namespace Scaffold.SyntaxTree
set_option autoImplicit true

variable {t m : SyntaxTree} {u : ClassUpdate} {target name body close : Nat}
  {front ids : List Nat}

def isAddedMethod (t m : SyntaxTree) (i : Nat) : Bool :=
  decide (t.size ≤ i) && m.kind i == "method_declaration"

/-- The methods that an update has added, in preorder. -/
def addedMethods (t m : SyntaxTree) : List Nat :=
  m.preorder.filter (t.isAddedMethod m)

theorem isAddedMethod_of_lt (h : i < t.size) : t.isAddedMethod m i = false := by
  simp [isAddedMethod, Nat.not_le_of_lt h]

theorem stubParts_kind (h : n ∈ stubParts x) : n.kind ≠ "method_declaration" := by
  simp only [stubParts, List.mem_cons, List.not_mem_nil, or_false] at h
  rcases h with rfl | rfl | rfl | rfl | rfl <;>
    simp [SyntaxNode.leaf, SyntaxNode.anonymous, SyntaxNode.withField]

theorem StubAt.isAddedMethod_part (h : StubAt m body a n) (hj : j < 5) :
    m.children (a + 1 + j) = [] ∧ t.isAddedMethod m (a + 1 + j) = false := by
  have hlt : j < (stubParts n).length := hj
  have hget := List.getElem?_eq_getElem hlt
  have hkind : m.kind (a + 1 + j) ≠ "method_declaration" := by
    have hpart := stubParts_kind (List.getElem_mem hlt)
    rwa [kind, h.part j _ hget]
  have hleaf := stubParts_children hget
  exact ⟨by rwa [children, h.part j _ hget], by simp [isAddedMethod, hkind]⟩

theorem StubAt.countP_preorderFrom (h : StubAt m body a n) (hm : m.Ascending)
    (ha : t.size ≤ a) : (m.preorderFrom a).countP (t.isAddedMethod m) = 1 := by
  have hself : t.isAddedMethod m a = true := by
    rw [isAddedMethod, kind, h.head]
    simpa [SyntaxNode.branch] using ha
  have hparts : ((m.children a).map fun c =>
      (m.preorderFrom c).countP (t.isAddedMethod m)).sum = 0 := by
    rw [List.sum_eq_zero_iff, List.forall_mem_map, children, h.head]
    intro c hc
    obtain ⟨j, hj, rfl⟩ := List.mem_range'.mp hc
    obtain ⟨hchildren, hother⟩ := h.isAddedMethod_part (t := t) hj
    rw [Nat.one_mul, hm.ranked.preorderFrom_eq, hchildren]
    simp [hother]
  rw [hm.ranked.preorderFrom_eq, List.countP_cons, if_pos hself, List.countP_flatMap]
  exact congrArg (· + 1) hparts

namespace Updated

theorem countP_of_replaced (h : Updated t m u name body front close ids)
    (hc : ClassAt t target name body front close) (hp : Preordered t) (hs : PhpShaped t)
    (hd : t.isDeclaration d = true) (hn : t.childByField d "name" = some i)
    (hi : i < t.size) (hcs : m.children i = []) :
    (m.preorderFrom i).countP (t.isAddedMethod m) =
      u.methods.length * (t.preorderFrom i).count body := by
  rw [List.count_eq_zero_of_not_mem (hc.body_notMem_name hp hs hd hn),
    (h.ascending_update hc hp).ranked.preorderFrom_eq, hcs]
  simp [isAddedMethod_of_lt hi]

theorem sum_countP_ids (h : Updated t m u name body front close ids) (hm : m.Ascending) :
    (ids.map fun a => (m.preorderFrom a).countP (t.isAddedMethod m)).sum = u.methods.length := by
  have hone : (ids.map fun a => (m.preorderFrom a).countP (t.isAddedMethod m)) =
      ids.map fun _ => 1 := by
    apply List.map_congr_left
    intro a ha
    obtain ⟨n, hstub⟩ := h.exists_stubAt ha
    exact hstub.countP_preorderFrom hm (h.fresh a ha).1
  rw [hone, ← h.stubs.length_eq]
  simp

theorem sum_countP_body (h : Updated t m u name body front close ids)
    (hc : ClassAt t target name body front close) (hm : m.Ascending) :
    ((m.children body).map fun c => (m.preorderFrom c).countP (t.isAddedMethod m)).sum =
      u.methods.length +
        ((t.children body).map fun c => (m.preorderFrom c).countP (t.isAddedMethod m)).sum := by
  have hcs : m.children body = front ++ ids ++ [close] := by rw [children, h.body_eq]
  rw [hcs, hc.children_eq]
  simp only [List.map_append, List.sum_append, h.sum_countP_ids hm]
  omega

/-- An update adds its methods below the nodes that stand above the body of the target. -/
theorem countP_preorderFrom (h : Updated t m u name body front close ids)
    (hc : ClassAt t target name body front close) (hp : Preordered t) (hs : PhpShaped t)
    (i : Nat) : i < t.size →
      (m.preorderFrom i).countP (t.isAddedMethod m) =
        u.methods.length * (t.preorderFrom i).count body := by
  have ham := h.ascending_update hc hp
  induction i using hp.ascending.induction with
  | step i ih =>
    intro hi
    have hbelow : ((t.children i).map fun c =>
          (m.preorderFrom c).countP (t.isAddedMethod m)).sum =
        u.methods.length * ((t.children i).map fun c => (t.preorderFrom c).count body).sum := by
      rw [← List.sum_map_mul_left]
      congr 1
      apply List.map_congr_left
      intro c hm
      exact ih c hm (hp.ascending i c hm).2
    rcases h.node_cases hi with ⟨_, hset, hn⟩ | hkept
    · obtain ⟨d, hd, hdn⟩ := hc.exists_declaration hset
      exact h.countP_of_replaced hc hp hs hd hdn hi (congrArg SyntaxNode.children hn)
    · rw [ham.ranked.preorderFrom_eq, hp.ascending.ranked.preorderFrom_eq, List.countP_cons,
        isAddedMethod_of_lt hi, List.countP_flatMap, List.count_cons, List.count_flatMap]
      rcases hkept with ⟨rfl, _⟩ | ⟨hb, hn⟩
      · have hbody := h.sum_countP_body hc ham
        rw [hbelow] at hbody
        simp [Function.comp_def, hbody, Nat.mul_add, Nat.add_comm]
      · have hcs : m.children i = t.children i := congrArg SyntaxNode.children hn
        rw [hcs]
        simpa [Function.comp_def, hb] using hbelow

end Updated

/-- A merge adds one method for each name. -/
theorem length_addedMethods (hp : Preordered t) (hs : PhpShaped t)
    (hm : t.merge namesp className names = .ok m) :
    (t.addedMethods m).length = names.length := by
  have hclass : t.hasClass = true := by
    cases htarget : t.targetClass className with
    | none => simp [merge, htarget] at hm
    | some target =>
      rw [hasClass, Bool.not_eq_true', List.isEmpty_eq_false_iff]
      exact List.ne_nil_of_mem (mem_classes_of_targetClass htarget)
  obtain ⟨target, m', name, body, front, close, ids, _, hm', hc, hu⟩ :=
    hs.exists_updated hp hclass namesp className names
  obtain rfl := Except.ok.inj (hm.symm.trans hm')
  have hbody : body < t.size := (hp.ascending target body hc.body_mem).2
  have hroot : root < t.size := Nat.lt_of_le_of_lt (Nat.zero_le _) hbody
  have hcount := hu.countP_preorderFrom hc hp hs root hroot
  have honce : t.preorder.count body = 1 := by
    rw [hp.preorder_eq]
    exact List.count_eq_one_of_mem List.nodup_range (List.mem_range.mpr hbody)
  rw [addedMethods, ← List.countP_eq_length_filter]
  rw [preorder] at honce ⊢
  rw [hcount, honce, Nat.mul_one]

end Scaffold.SyntaxTree
