import Mathlib.Logic.Relation
import Scaffold.Proofs.Tree.Editing

namespace Scaffold
set_option autoImplicit true

/-- A node that does not stem from the source and has no place in a tree yet. -/
structure SyntaxNode.IsNew (n : SyntaxNode) : Prop where
  span : n.span = none
  leading : n.leading = none
  trailing : n.trailing = none
  parent : n.parent = none
  children : n.children = []

theorem SyntaxNode.isNew_leaf (kind text : String) : (SyntaxNode.leaf kind text).IsNew :=
  ⟨rfl, rfl, rfl, rfl, rfl⟩

theorem SyntaxNode.isNew_branch (kind : String) : (SyntaxNode.branch kind).IsNew :=
  ⟨rfl, rfl, rfl, rfl, rfl⟩

namespace SyntaxTree

/-- One edit of a tree whose new nodes start at the index `first`. -/
inductive Alters (first : Nat) : SyntaxTree → SyntaxTree → Prop where
  /-- A text takes the place of any node. -/
  | replace (hi : i < e.size) (text : String) : Alters first e (e.replaceWithText i text)
  | push {n : SyntaxNode} (hn : n.IsNew) : Alters first e (e.push n)
  /-- A new node that has no place yet finds one, together with what stands below it. -/
  | insert (hparent : parent < e.size) (hchild : child < e.size) (hnew : first ≤ child)
      (hfree : (e.node child).parent = none) (hapart : parent ∉ e.preorderFrom child)
      (hindex : index ≤ (e.children parent).length) :
      Alters first e (e.insertChild parent index child)

/-- What any finite number of edits makes of a tree. -/
def Altered (t e : SyntaxTree) : Prop :=
  Relation.ReflTransGen (Alters t.size) t e

/-- What edits leave of a node of the unedited tree. -/
inductive Remains (t e : SyntaxTree) (i : Nat) : Prop where
  | kept (hn : e.node i = { t.node i with children := e.children i })
      (hc : (e.children i).filter (· < t.size) = t.children i)
  | replaced {x : String} (hs : (e.node i).span = none) (hr : (e.node i).replacement = some x)
      (hl : (e.node i).leading = (t.node i).leading)

structure Survives (t e : SyntaxTree) : Prop where
  source_eq : e.source = t.source
  size_le : t.size ≤ e.size
  remains : ∀ i < t.size, t.Remains e i
  fresh : ∀ i, t.size ≤ i → (e.node i).span = none ∧ (e.node i).leading = none

variable {t e e' : SyntaxTree}

theorem Remains.congr (h : t.Remains e i) (hn : e'.node i = e.node i) : t.Remains e' i := by
  have hcs : e'.children i = e.children i := by rw [children, children, hn]
  cases h with
  | kept hk hc => exact .kept (by rw [hn, hcs, hk]) (by rw [hcs, hc])
  | replaced hs hr hl => exact .replaced (by rw [hn, hs]) (by rw [hn, hr]) (by rw [hn, hl])

theorem Remains.leading_eq (h : t.Remains e i) : (e.node i).leading = (t.node i).leading := by
  cases h with
  | kept hn _ => rw [hn]
  | replaced _ _ hl => exact hl

theorem survives_refl (h : t.Ascending) : t.Survives t where
  source_eq := rfl
  size_le := Nat.le_refl _
  remains i _ := by
    refine .kept rfl (List.filter_eq_self.mpr ?_)
    intro c hc
    exact decide_eq_true (h i c hc).2
  fresh i hi := by
    rw [node_of_size_le hi]
    exact ⟨rfl, rfl⟩

theorem Survives.replaceWithText (h : t.Survives e) (hi : i < e.size) (text : String) :
    t.Survives (e.replaceWithText i text) where
  source_eq := h.source_eq
  size_le := by rw [size_replaceWithText]; exact h.size_le
  remains j hj := by
    by_cases he : j = i
    · subst he
      have hn := node_replaceWithText_self hi text
      refine .replaced (x := text) ?_ ?_ ?_
      · rw [hn]
        rfl
      · rw [hn]
        rfl
      · rw [hn]
        exact (h.remains j hj).leading_eq
    · exact (h.remains j hj).congr (node_replaceWithText_of_ne he text)
  fresh j hj := by
    by_cases he : j = i
    · subst he
      rw [node_replaceWithText_self hi]
      exact ⟨rfl, (h.fresh j hj).2⟩
    · rw [node_replaceWithText_of_ne he]
      exact h.fresh j hj

theorem Survives.push {n : SyntaxNode} (h : t.Survives e) (hn : n.IsNew) :
    t.Survives (e.push n) where
  source_eq := h.source_eq
  size_le := by rw [size_push]; exact Nat.le_succ_of_le h.size_le
  remains i hi :=
    (h.remains i hi).congr (node_push_of_lt (Nat.lt_of_lt_of_le hi h.size_le) n)
  fresh i hi := by
    rcases Nat.lt_trichotomy i e.size with hlt | rfl | hgt
    · rw [node_push_of_lt hlt]
      exact h.fresh i hi
    · rw [node_push_self]
      exact ⟨hn.span, hn.leading⟩
    · rw [node_of_size_le (by rw [size_push]; exact hgt)]
      exact ⟨rfl, rfl⟩

theorem filter_insertIdx {p : α → Bool} (hx : p x = false) (l : List α) (k : Nat) :
    (l.insertIdx k x).filter p = l.filter p := by
  induction l generalizing k with
  | nil => cases k <;> simp [List.insertIdx_succ_nil, hx]
  | cons y l ih =>
    cases k with
    | zero => simp [hx]
    | succ k => rw [List.insertIdx_succ_cons, List.filter_cons, List.filter_cons, ih]

theorem Remains.insertChild (h : t.Remains e parent) (hp : parent < e.size)
    (hne : parent ≠ child) (hc : t.size ≤ child) (index : Nat) :
    t.Remains (e.insertChild parent index child) parent := by
  have hn := node_insertChild_parent hp hne index
  have hcs : (e.insertChild parent index child).children parent =
      (e.children parent).insertIdx index child := by
    rw [children, hn]
  cases h with
  | kept hk hfilter =>
    refine .kept ?_ ?_
    · rw [hcs, hn, hk]
    · rw [hcs, filter_insertIdx (by simpa using hc), hfilter]
  | replaced hs hr hl =>
    refine .replaced ?_ (by rw [hn]; exact hr) ?_
    · rw [hn]
      exact hs
    · rw [hn]
      exact hl

theorem Survives.insertChild (h : t.Survives e) (hp : parent < e.size) (hchild : child < e.size)
    (hnew : t.size ≤ child) (hne : parent ≠ child) (index : Nat) :
    t.Survives (e.insertChild parent index child) where
  source_eq := h.source_eq
  size_le := by rw [size_insertChild]; exact h.size_le
  remains i hi := by
    by_cases hip : i = parent
    · subst hip
      exact (h.remains i hi).insertChild hp hne hnew index
    · have hic : i ≠ child := Nat.ne_of_lt (Nat.lt_of_lt_of_le hi hnew)
      exact (h.remains i hi).congr (node_insertChild_of_ne hip hic index)
  fresh i hi := by
    by_cases hip : i = parent
    · subst hip
      rw [node_insertChild_parent hp hne]
      exact h.fresh i hi
    · by_cases hic : i = child
      · subst hic
        rw [node_insertChild_child hchild hne.symm]
        exact h.fresh i hi
      · rw [node_insertChild_of_ne hip hic]
        exact h.fresh i hi

theorem Survives.alters (h : t.Survives e) (ha : Alters t.size e e') : t.Survives e' := by
  cases ha with
  | replace hi text => exact h.replaceWithText hi text
  | push hn => exact h.push hn
  | insert hp hc hnew _ hapart _ =>
    refine h.insertChild hp hc hnew ?_ _
    rintro rfl
    exact hapart (e.mem_preorderFrom_self _)

/-- Every node of a tree survives any finite number of edits as such, or a text stands in its
place. -/
theorem Altered.survives (h : t.Altered e) (ht : t.Ascending) : t.Survives e := by
  induction h with
  | refl => exact survives_refl ht
  | tail _ hstep ih => exact ih.alters hstep

end SyntaxTree

end Scaffold
