import Scaffold.Declaration
import Scaffold.Merge
import Scaffold.Proofs.Tree.Shape

namespace Scaffold.SyntaxTree
set_option autoImplicit true

variable {t : SyntaxTree}

/-- The nodes that an extraction looks at, at and below a node down to a depth, each with the
namespace in effect. -/
def sitesTo (t : SyntaxTree) : Nat → Nat → Option String → List (Nat × Option String)
  | 0, _, _ => []
  | depth + 1, i, namesp =>
    (i, namesp) :: (t.scopes namesp (t.children i)).flatMap fun s => t.sitesTo depth s.1 s.2

def sitesFrom (t : SyntaxTree) (i : Nat) (namesp : Option String) : List (Nat × Option String) :=
  t.sitesTo (t.size + 1) i namesp

def sites (t : SyntaxTree) : List (Nat × Option String) :=
  t.sitesFrom root none

theorem declarationsTo_eq_filterMap (d i : Nat) (namesp : Option String) :
    t.declarationsTo d i namesp =
      (t.sitesTo d i namesp).filterMap fun s => t.declaration? s.2 s.1 := by
  induction d generalizing i namesp with
  | zero => rfl
  | succ d ih =>
    rw [declarationsTo, sitesTo, List.filterMap_cons, List.filterMap_flatMap]
    simp only [ih]
    cases t.declaration? namesp i <;> rfl

theorem declarations_eq_filterMap (t : SyntaxTree) :
    t.declarations = t.sites.filterMap fun s => t.declaration? s.2 s.1 :=
  declarationsTo_eq_filterMap ..

/-- A scope stands one or two steps below its node: a child, or the body of a child. -/
theorem mem_scopes (hs : s ∈ t.scopes namesp cs) : s.1 ∈ cs ∨ ∃ c ∈ cs, s.1 ∈ t.children c := by
  induction cs generalizing namesp with
  | nil => cases hs
  | cons c cs ih =>
    have htail : ∀ {n}, s ∈ t.scopes n cs → s.1 ∈ c :: cs ∨ ∃ d ∈ c :: cs, s.1 ∈ t.children d := by
      intro n hs
      rcases ih hs with hm | ⟨d, hd, hm⟩
      · exact .inl (List.mem_cons_of_mem _ hm)
      · exact .inr ⟨d, List.mem_cons_of_mem _ hd, hm⟩
    rw [scopes] at hs
    split at hs
    · split at hs
      · rename_i body hb
        rcases List.mem_cons.mp hs with rfl | hs
        · exact .inr ⟨c, List.mem_cons_self, List.mem_of_find?_eq_some hb⟩
        · exact htail hs
      · exact htail hs
    · rcases List.mem_cons.mp hs with rfl | hs
      · exact .inl List.mem_cons_self
      · exact htail hs

theorem height_lt_of_mem_scopes (h : Ranked t height) (hs : s ∈ t.scopes namesp (t.children i)) :
    height s.1 < height i := by
  rcases mem_scopes hs with hc | ⟨c, hc, hm⟩
  · exact h.child_lt hc
  · exact Nat.lt_trans (h.child_lt hm) (h.child_lt hc)

theorem sitesTo_eq (h : Ranked t height) (hd : height i < d) (hd' : height i < d') :
    t.sitesTo d i namesp = t.sitesTo d' i namesp := by
  induction d generalizing i d' namesp with
  | zero => omega
  | succ d ih =>
    cases d' with
    | zero => omega
    | succ d' =>
      simp only [sitesTo, List.cons.injEq, true_and]
      apply List.flatMap_congr
      intro s hs
      have hlt := height_lt_of_mem_scopes h hs
      exact ih (by omega) (by omega)

theorem Ranked.sitesFrom_eq (h : Ranked t height) (i : Nat) (namesp : Option String) :
    t.sitesFrom i namesp = (i, namesp) ::
      (t.scopes namesp (t.children i)).flatMap fun s => t.sitesFrom s.1 s.2 := by
  have hs := h.le_size i
  rw [sitesFrom, sitesTo]
  congr 1
  apply List.flatMap_congr
  intro s hm
  have hlt := height_lt_of_mem_scopes h hm
  exact sitesTo_eq h (by omega) (by omega)

/-- A property of all nodes that passes to a node from the two generations below it, where its
scopes stand. -/
theorem Ranked.scope_induction {P : Nat → Prop} (h : Ranked t height)
    (step : ∀ i, (∀ c ∈ t.children i, P c ∧ ∀ d ∈ t.children c, P d) → P i) (i : Nat) : P i := by
  have hall : P i ∧ ∀ c ∈ t.children i, P c := by
    induction i using h.induction with
    | step i ih => exact ⟨step i ih, fun c hc => (ih c hc).1⟩
  exact hall.1

theorem mem_preorderFrom_of_mem_sites (h : Ranked t height) (i : Nat) :
    ∀ namesp, ∀ s ∈ t.sitesFrom i namesp, s.1 ∈ t.preorderFrom i := by
  induction i using h.scope_induction with
  | step i ih =>
    intro namesp s hs
    rw [h.sitesFrom_eq, List.mem_cons, List.mem_flatMap] at hs
    rcases hs with rfl | ⟨v, hv, hs⟩
    · exact t.mem_preorderFrom_self i
    · rcases mem_scopes hv with hc | ⟨c, hc, hm⟩
      · exact h.mem_preorderFrom_child hc ((ih v.1 hc).1 v.2 s hs)
      · have hin := (ih c hc).2 v.1 hm v.2 s hs
        exact h.mem_preorderFrom_child hc (h.mem_preorderFrom_child hm hin)

theorem sitesFrom_filter_eq_nil {k : String → Bool} (h : Ranked t height)
    (hk : ∀ x ∈ t.preorderFrom i, k (t.kind x) = false) (namesp : Option String) :
    (t.sitesFrom i namesp).filter (fun s => k (t.kind s.1)) = [] := by
  rw [List.filter_eq_nil_iff]
  intro s hs
  rw [hk s.1 (mem_preorderFrom_of_mem_sites h i namesp s hs)]
  exact Bool.false_ne_true

/-- Within namespace definitions, nodes of some kinds stand in the bodies only. -/
def InBodies (t : SyntaxTree) (k : String → Bool) : Prop :=
  ∀ i ∈ t.preorder, t.kind i = "namespace_definition" →
    ∀ c ∈ t.children i, t.childByField i "body" ≠ some c →
      ∀ x ∈ t.preorderFrom c, k (t.kind x) = false

instance (t : SyntaxTree) (k : String → Bool) : Decidable (t.InBodies k) :=
  inferInstanceAs (Decidable (∀ _ ∈ _, _))

def nodesFrom (t : SyntaxTree) (k : String → Bool) (i : Nat) : List Nat :=
  (t.preorderFrom i).filter fun x => k (t.kind x)

theorem flatMap_of_unique {l : List α} {f : α → List β} (hb : b ∈ l) (hn : l.Nodup)
    (h : ∀ c ∈ l, c ≠ b → f c = []) : l.flatMap f = f b := by
  obtain ⟨l₁, l₂, rfl⟩ := List.append_of_mem hb
  have hnd := List.nodup_middle.mp hn
  rw [List.nodup_cons, List.mem_append, not_or] at hnd
  have hnil : ∀ l' : List α, (∀ c ∈ l', c ∈ l₁ ++ b :: l₂ ∧ c ≠ b) → l'.flatMap f = [] := by
    intro l' hl'
    rw [List.flatMap_eq_nil_iff]
    intro c hc
    exact h c (hl' c hc).1 (hl' c hc).2
  rw [List.flatMap_append, List.flatMap_cons, hnil l₁, hnil l₂, List.nil_append, List.append_nil]
  · intro c hc
    exact ⟨by simp [hc], fun he => hnd.1.2 (he ▸ hc)⟩
  · intro c hc
    exact ⟨by simp [hc], fun he => hnd.1.1 (he ▸ hc)⟩

section Kinds

variable {k : String → Bool}

theorem nodesFrom_eq (h : Ranked t height) (i : Nat) :
    t.nodesFrom k i = [i].filter (fun x => k (t.kind x)) ++
      (t.children i).flatMap (t.nodesFrom k) := by
  rw [nodesFrom, h.preorderFrom_eq, ← List.singleton_append, List.filter_append,
    List.filter_flatMap]
  rfl

theorem nodesFrom_eq_nil (h : ∀ x ∈ t.preorderFrom i, k (t.kind x) = false) :
    t.nodesFrom k i = [] := by
  rw [nodesFrom, List.filter_eq_nil_iff]
  intro x hx
  simp [h x hx]

theorem InBodies.nodesFrom_namespace (h : t.InBodies k) (ht : t.Treelike)
    (hns : k "namespace_definition" = false) (hc : c ∈ t.preorder)
    (hk : t.kind c = "namespace_definition") :
    t.nodesFrom k c = ((t.childByField c "body").map (t.nodesFrom k)).getD [] := by
  obtain ⟨height, hr⟩ := ht.ranked
  have hplain := h c hc hk
  have hself : [c].filter (fun x => k (t.kind x)) = [] := by simp [hk, hns]
  rw [nodesFrom_eq hr, hself, List.nil_append]
  cases hb : t.childByField c "body" with
  | none =>
    rw [Option.map_none, Option.getD_none, List.flatMap_eq_nil_iff]
    intro d hd
    exact nodesFrom_eq_nil (hplain d hd (by simp [hb]))
  | some b =>
    refine flatMap_of_unique (List.mem_of_find?_eq_some hb) (ht.children_nodup c) ?_
    intro d hd hne
    refine nodesFrom_eq_nil (hplain d hd ?_)
    rw [hb]
    exact fun he => hne (Option.some.inj he).symm

def Orderly (t : SyntaxTree) (k : String → Bool) (i : Nat) : Prop :=
  ∀ namesp, ((t.sitesFrom i namesp).map Prod.fst).filter (fun x => k (t.kind x)) =
    t.nodesFrom k i

theorem InBodies.scopes_orderly (h : t.InBodies k) (ht : t.Treelike)
    (hns : k "namespace_definition" = false)
    (hcs : ∀ c ∈ cs, c ∈ t.preorder ∧ t.Orderly k c ∧ ∀ d ∈ t.children c, t.Orderly k d)
    (namesp : Option String) :
    (((t.scopes namesp cs).flatMap fun s => t.sitesFrom s.1 s.2).map Prod.fst).filter
      (fun x => k (t.kind x)) = cs.flatMap (t.nodesFrom k) := by
  induction cs generalizing namesp with
  | nil => rfl
  | cons c cs ih =>
    have htail := ih fun d hd => hcs d (List.mem_cons_of_mem _ hd)
    obtain ⟨hm, hc, hd⟩ := hcs c List.mem_cons_self
    rw [scopes]
    split
    · rename_i hk
      have hfrom := h.nodesFrom_namespace ht hns hm (beq_iff_eq.mp hk)
      rw [List.flatMap_cons, hfrom]
      split
      · rename_i body hb
        rw [hb, List.flatMap_cons, List.map_append, List.filter_append, htail,
          hd body (List.mem_of_find?_eq_some hb)]
        rfl
      · rename_i hb
        rw [hb, htail]
        rfl
    · rw [List.flatMap_cons, List.flatMap_cons, List.map_append, List.filter_append, htail, hc]

theorem InBodies.orderly (h : t.InBodies k) (ht : t.Treelike)
    (hns : k "namespace_definition" = false) (i : Nat) : i ∈ t.preorder → t.Orderly k i := by
  obtain ⟨height, hr⟩ := ht.ranked
  induction i using hr.scope_induction with
  | step i ih =>
    intro hi namesp
    rw [hr.sitesFrom_eq, List.map_cons, ← List.singleton_append, List.filter_append,
      nodesFrom_eq hr]
    congr 1
    refine h.scopes_orderly ht hns ?_ namesp
    intro c hc
    have hm := ht.mem_preorder_child hi hc
    exact ⟨hm, (ih c hc).1 hm, fun d hd => (ih c hc).2 d hd (ht.mem_preorder_child hm hd)⟩

theorem InBodies.map_sites (h : t.InBodies k) (ht : t.Treelike)
    (hns : k "namespace_definition" = false) :
    (t.sites.map Prod.fst).filter (fun x => k (t.kind x)) =
      t.preorder.filter fun x => k (t.kind x) :=
  h.orderly ht hns root (t.mem_preorderFrom_self root) none

end Kinds

/-- What the grammar says about where classes stand and how they are named. -/
structure Scoped (t : SyntaxTree) : Prop where
  class_named : ∀ i ∈ t.preorder, t.kind i = "class_declaration" → (t.declaredName i).isSome
  namespace_plain : ∀ i ∈ t.preorder, t.kind i = "namespace_definition" →
    ∀ c ∈ t.children i, t.childByField i "body" ≠ some c →
      ∀ x ∈ t.preorderFrom c, t.kind x ≠ "class_declaration"

theorem Scoped.inBodies (h : Scoped t) : t.InBodies (· == "class_declaration") := by
  intro i hi hk c hc hb x hx
  exact beq_false_of_ne (h.namespace_plain i hi hk c hc hb x hx)

/-- An extraction meets the classes of a tree in preorder. -/
theorem Scoped.sites_classes (h : Scoped t) (hp : Preordered t) :
    (t.sites.map Prod.fst).filter (fun x => t.kind x == "class_declaration") = t.classes :=
  h.inBodies.map_sites hp.treelike (by decide)

end Scaffold.SyntaxTree
