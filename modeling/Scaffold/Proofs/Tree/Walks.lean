import Mathlib.Logic.Relation
import Scaffold.Proofs.Tree.Shape

namespace Scaffold.SyntaxTree
set_option autoImplicit true

variable {t : SyntaxTree}

def Reaches (t : SyntaxTree) : Nat → Nat → Prop :=
  Relation.ReflTransGen fun i c => c ∈ t.children i

/-- The nodes that a walk with a stack visits, in order: the node on top gives way to its
children. -/
inductive StackWalk (t : SyntaxTree) : List Nat → List Nat → Prop where
  | done : StackWalk t [] []
  | visit (h : StackWalk t (t.children i ++ stack) order) : StackWalk t (i :: stack) (i :: order)

/-- What a climb finds that follows the parents which the nodes note, up to a node of one of the
kinds. -/
inductive Climb (t : SyntaxTree) (kinds : List String) : Option Nat → Option Nat → Prop where
  | ends : Climb t kinds none none
  | finds (h : kinds.contains (t.kind p) = true) : Climb t kinds (some p) (some p)
  | passes (h : kinds.contains (t.kind p) = false) (hup : Climb t kinds (t.node p).parent r) :
      Climb t kinds (some p) r

inductive Lineage (t : SyntaxTree) : Nat → List Nat → Prop where
  | start : Lineage t root []
  | child (hc : c ∈ t.children i) (h : Lineage t i above) : Lineage t c (i :: above)

theorem StackWalk.unique (h : t.StackWalk stack order) (h' : t.StackWalk stack order') :
    order = order' := by
  induction h generalizing order' with
  | done =>
    cases h'
    rfl
  | visit _ ih =>
    cases h' with
    | visit h' => rw [ih h']

theorem Climb.unique (h : t.Climb kinds i r) (h' : t.Climb kinds i r') : r = r' := by
  induction h with
  | ends =>
    cases h'
    rfl
  | finds hk =>
    cases h' with
    | finds => rfl
    | passes hk' => rw [hk] at hk'; cases hk'
  | passes hk _ ih =>
    cases h' with
    | finds hk' => rw [hk] at hk'; cases hk'
    | passes _ hup' => exact ih hup'

theorem stackWalk_append (hcs : ∀ c ∈ cs, ∀ stack order, t.StackWalk stack order →
      t.StackWalk (c :: stack) (t.preorderFrom c ++ order))
    (h : t.StackWalk stack order) :
    t.StackWalk (cs ++ stack) (cs.flatMap t.preorderFrom ++ order) := by
  induction cs with
  | nil => exact h
  | cons c cs ih =>
    have hrest := ih fun c' hc' => hcs c' (List.mem_cons_of_mem _ hc')
    rw [List.cons_append, List.flatMap_cons, List.append_assoc]
    exact hcs c List.mem_cons_self _ _ hrest

/-- A walk with a stack goes through all that stands below the top before it goes on. -/
theorem Ranked.stackWalk (hr : Ranked t height) (i : Nat) : ∀ stack order,
    t.StackWalk stack order → t.StackWalk (i :: stack) (t.preorderFrom i ++ order) := by
  induction i using hr.induction with
  | step i ih =>
    intro stack order h
    rw [hr.preorderFrom_eq, List.cons_append]
    exact .visit (stackWalk_append ih h)

theorem Ranked.reaches_iff (hr : Ranked t height) : t.Reaches i j ↔ j ∈ t.preorderFrom i := by
  constructor
  · intro h
    induction h with
    | refl => exact t.mem_preorderFrom_self i
    | tail _ hc ih =>
      exact (hr.preorderFrom_sublist i _ ih).subset
        (hr.mem_preorderFrom_child hc (t.mem_preorderFrom_self _))
  · induction i using hr.induction with
    | step i ih =>
      intro hj
      rw [hr.preorderFrom_eq, List.mem_cons, List.mem_flatMap] at hj
      rcases hj with rfl | ⟨c, hc, hj⟩
      · exact .refl
      · exact .head hc (ih c hc hj)

theorem sublist_flatMap_preorderFrom (t : SyntaxTree) (cs : List Nat) :
    cs.Sublist (cs.flatMap t.preorderFrom) := by
  induction cs with
  | nil => exact .slnil
  | cons c cs ih =>
    rw [List.flatMap_cons]
    exact (List.singleton_sublist.mpr (t.mem_preorderFrom_self c)).append ih

theorem exists_lineage (h : t.Reaches root i) : ∃ above, t.Lineage i above := by
  induction h with
  | refl => exact ⟨[], .start⟩
  | tail _ hc ih =>
    obtain ⟨above, h⟩ := ih
    exact ⟨_, .child hc h⟩

theorem Lineage.length_le (h : t.Lineage i above) (hr : Ranked t height) :
    height i + above.length ≤ height root := by
  induction h with
  | start => exact Nat.le_refl _
  | child hc _ ih =>
    have hlt := hr.child_lt hc
    rw [List.length_cons]
    omega

namespace Treelike

theorem reaches_iff (ht : t.Treelike) : t.Reaches i j ↔ j ∈ t.preorderFrom i := by
  obtain ⟨height, hr⟩ := ht.ranked
  exact hr.reaches_iff

theorem stackWalk_iff (ht : t.Treelike) (order : List Nat) :
    t.StackWalk [i] order ↔ order = t.preorderFrom i := by
  obtain ⟨height, hr⟩ := ht.ranked
  have hwalk := hr.stackWalk i [] [] .done
  rw [List.append_nil] at hwalk
  constructor
  · intro h
    exact h.unique hwalk
  · rintro rfl
    exact hwalk

theorem lineage_unique (ht : t.Treelike) (hroot : (t.node root).parent = none)
    (h : t.Lineage i above) (h' : t.Lineage i above') : above = above' := by
  induction h generalizing above' with
  | start =>
    cases h' with
    | start => rfl
    | child hc _ =>
      rw [ht.parent_of_mem hc] at hroot
      cases hroot
  | child hc _ ih =>
    cases h' with
    | start =>
      rw [ht.parent_of_mem hc] at hroot
      cases hroot
    | child hc' hup =>
      obtain rfl := ht.parent_unique hc hc'
      rw [ih hup]

theorem ancestorTo_eq (ht : t.Treelike) (hroot : (t.node root).parent = none)
    (h : t.Lineage i above) (kinds : List String) (hs : above.length < steps) :
    t.ancestorTo kinds steps i = above.find? fun a => kinds.contains (t.kind a) := by
  induction h generalizing steps with
  | start =>
    cases steps with
    | zero => rfl
    | succ steps => rw [ancestorTo, hroot]; rfl
  | child hc _ ih =>
    cases steps with
    | zero => cases hs
    | succ steps =>
      rw [ancestorTo, ht.parent_of_mem hc, List.find?_cons, ← ih (Nat.lt_of_succ_lt_succ hs)]
      dsimp only
      split
      · rename_i hk
        rw [hk]
      · rename_i hk
        rw [Bool.not_eq_true] at hk
        rw [hk]

theorem ancestorOfKind_eq (ht : t.Treelike) (hroot : (t.node root).parent = none)
    (h : t.Lineage i above) (kinds : List String) :
    t.ancestorOfKind i kinds = above.find? fun a => kinds.contains (t.kind a) := by
  obtain ⟨height, hr⟩ := ht.ranked
  have hle := h.length_le hr
  have hs := hr.le_size root
  exact ht.ancestorTo_eq hroot h kinds (by omega)

theorem climb (ht : t.Treelike) (hroot : (t.node root).parent = none) (h : t.Lineage i above)
    (kinds : List String) :
    t.Climb kinds (t.node i).parent (above.find? fun a => kinds.contains (t.kind a)) := by
  induction h with
  | start =>
    rw [hroot]
    exact .ends
  | @child i c above hc _ ih =>
    rw [ht.parent_of_mem hc, List.find?_cons]
    cases hk : kinds.contains (t.kind i) with
    | true => exact .finds hk
    | false => exact .passes hk ih

theorem sublist_preorder (ht : t.Treelike) (hi : t.Reaches root i) :
    (i :: t.children i).Sublist t.preorder := by
  obtain ⟨height, hr⟩ := ht.ranked
  have hbelow : (i :: t.children i).Sublist (t.preorderFrom i) := by
    rw [hr.preorderFrom_eq]
    exact (sublist_flatMap_preorderFrom t _).cons_cons i
  exact hbelow.trans (hr.preorderFrom_sublist root i (ht.reaches_iff.mp hi))

theorem exists_parent (ht : t.Treelike) (hi : t.Reaches root i) (hne : i ≠ root) :
    ∃ p, t.Reaches root p ∧ (t.node i).parent = some p ∧ (t.children p).count i = 1 ∧
      ∀ q, t.Reaches root q → i ∈ t.children q → q = p := by
  rcases hi.cases_tail with rfl | ⟨p, hp, hc⟩
  · exact absurd rfl hne
  · exact ⟨p, hp, ht.parent_of_mem hc, List.count_eq_one_of_mem (ht.children_nodup p) hc,
      fun q _ hq => ht.parent_unique hq hc⟩

end Treelike

/-- What can be reached from the root is a tree, and all walks in it find their way. -/
structure TreeShaped (t : SyntaxTree) : Prop where
  /-- Every node but the root stands once among the children of a single node, its parent. -/
  parent : ∀ i, t.Reaches root i → i ≠ root →
    ∃ p, t.Reaches root p ∧ (t.node i).parent = some p ∧ (t.children p).count i = 1 ∧
      ∀ q, t.Reaches root q → i ∈ t.children q → q = p
  /-- A walk with a stack ends, and it visits every node that can be reached once. -/
  walk : ∀ order, t.StackWalk [root] order ↔ order = t.preorder
  mem_preorder : ∀ i, i ∈ t.preorder ↔ t.Reaches root i
  nodup : t.preorder.Nodup
  /-- It comes to a node before its children, and to these in their order. -/
  ordered : ∀ i, t.Reaches root i → (i :: t.children i).Sublist t.preorder
  recursive : ∀ i, t.Reaches root i →
    t.preorderFrom i = i :: (t.children i).flatMap t.preorderFrom
  /-- A climb ends, and it finds the nearest node of the kinds on the one path to the root. -/
  climb : ∀ i, t.Reaches root i → ∃ above, (∀ way, t.Lineage i way ↔ way = above) ∧
    ∀ kinds, t.ancestorOfKind i kinds = above.find? (fun a => kinds.contains (t.kind a)) ∧
      ∀ r, t.Climb kinds (t.node i).parent r ↔ r = t.ancestorOfKind i kinds

theorem Treelike.treeShaped (ht : t.Treelike) (hroot : (t.node root).parent = none) :
    t.TreeShaped where
  parent _ := ht.exists_parent
  walk := ht.stackWalk_iff
  mem_preorder _ := ht.reaches_iff.symm
  nodup := ht.nodup_preorder
  ordered _ := ht.sublist_preorder
  recursive i _ := by
    obtain ⟨height, hr⟩ := ht.ranked
    exact hr.preorderFrom_eq i
  climb i hi := by
    obtain ⟨above, h⟩ := exists_lineage hi
    refine ⟨above, fun way => ⟨fun h' => ht.lineage_unique hroot h' h, fun he => he ▸ h⟩, ?_⟩
    intro kinds
    have hfind := ht.ancestorOfKind_eq hroot h kinds
    have hclimb := ht.climb hroot h kinds
    refine ⟨hfind, fun r => ?_⟩
    rw [hfind]
    exact ⟨fun h' => h'.unique hclimb, fun he => he ▸ hclimb⟩

end Scaffold.SyntaxTree
