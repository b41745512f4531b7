import Scaffold.Path

namespace Scaffold
set_option autoImplicit true

namespace Component

theorem cmp_eq_compareLex : cmp = compareLex (compareOn rank) (compareOn text) :=
  rfl

theorem eq_of_rank_text {a b : Component} (hr : a.rank = b.rank) (ht : a.text = b.text) :
    a = b := by
  cases a <;> cases b <;> simp_all [rank, text]

instance : Std.TransCmp cmp := by
  rw [cmp_eq_compareLex]
  infer_instance

instance : Std.LawfulEqCmp cmp where
  compare_self := Std.ReflCmp.compare_self
  eq_of_compare {a b} h := by
    rw [cmp_eq_compareLex, compareLex_eq_eq] at h
    exact eq_of_rank_text (Std.LawfulEqCmp.eq_of_compare h.1) (Std.LawfulEqCmp.eq_of_compare h.2)

theorem cmpAll_eq_compareLex : cmpAll = List.compareLex cmp := by
  funext as bs
  induction as generalizing bs with
  | nil => cases bs <;> rfl
  | cons a as ih =>
    cases bs with
    | nil => rfl
    | cons b bs =>
      rw [cmpAll, ih, List.compareLex_cons_cons]

instance : Std.TransCmp cmpAll := by
  rw [cmpAll_eq_compareLex]
  infer_instance

instance : Std.LawfulEqCmp cmpAll := by
  rw [cmpAll_eq_compareLex]
  infer_instance

end Component

namespace Path

theorem componentsBelow?_eq_some_iff {base : Path} :
    base.componentsBelow? steps = some rest ↔ steps = base.components ++ rest := by
  rw [componentsBelow?]
  split
  · rename_i h
    obtain ⟨tail, rfl⟩ := List.isPrefixOf_iff_prefix.mp h
    simp
  · rename_i h
    refine ⟨nofun, ?_⟩
    rintro rfl
    exact absurd (List.isPrefixOf_iff_prefix.mpr (List.prefix_append _ _)) h

theorem componentsBelow?_eq_none_iff {base : Path} :
    base.componentsBelow? steps = none ↔ ¬ base.components <+: steps := by
  rw [componentsBelow?, ← List.isPrefixOf_iff_prefix]
  split <;> simp [*]

variable {p q r : Path}

theorem cmp_eq_iff : p.cmp q = .eq ↔ p.components = q.components := by
  rw [cmp]
  exact Std.LawfulEqCmp.compare_eq_iff_eq

theorem cmp_congr (h : p.components = q.components) (r : Path) : p.cmp r = q.cmp r := by
  rw [cmp, cmp, h]

theorem cmp_swap (p q : Path) : p.cmp q = (q.cmp p).swap := by
  rw [cmp, cmp]
  exact Std.OrientedCmp.eq_swap

theorem cmp_trans (h : (p.cmp q).isLE = true) (h' : (q.cmp r).isLE = true) :
    (p.cmp r).isLE = true := by
  rw [cmp] at h h' ⊢
  exact Std.TransCmp.isLE_trans h h'

theorem cmp_total (p q : Path) : ((p.cmp q).isLE || (q.cmp p).isLE) = true := by
  rw [cmp_swap q p]
  cases p.cmp q <;> rfl

theorem cmp_lt_trans (h : p.cmp q = .lt) (h' : q.cmp r = .lt) : p.cmp r = .lt := by
  rw [cmp] at h h' ⊢
  exact Std.TransCmp.lt_trans h h'

end Path

end Scaffold
