import Scaffold.Proofs.Path.Comparing
import Scaffold.Scan

namespace Scaffold
set_option autoImplicit true

namespace Scan

def isAt (steps : List Component) (f : ScannedFile) : Bool :=
  f.path.components == steps

theorem isAt_iff {f : ScannedFile} : isAt steps f = true ↔ f.path.components = steps :=
  beq_iff_eq

def notBehind (f g : ScannedFile) : Bool :=
  (f.path.cmp g.path).isLE

theorem notBehind_trans (f g h : ScannedFile) (hfg : notBehind f g = true)
    (hgh : notBehind g h = true) : notBehind f h = true :=
  Path.cmp_trans hfg hgh

theorem notBehind_total (f g : ScannedFile) : (notBehind f g || notBehind g f) = true :=
  Path.cmp_total f.path g.path

theorem pairwise_sort (fs : List ScannedFile) :
    (sort fs).Pairwise fun f g => notBehind f g = true :=
  List.pairwise_mergeSort notBehind_trans notBehind_total fs

/-- Sorting keeps files with the same steps in their order. -/
theorem filter_sort (steps : List Component) (fs : List ScannedFile) :
    (sort fs).filter (isAt steps) = fs.filter (isAt steps) := by
  -- files with the same steps are in order however they stand, so sorting keeps them as a sublist
  have hsame : (fs.filter (isAt steps)).Pairwise fun f g => notBehind f g = true := by
    apply List.pairwise_of_forall_mem_list
    intro f hf g hg
    rw [List.mem_filter, isAt_iff] at hf hg
    rw [notBehind, Path.cmp_eq_iff.mpr (hf.2.trans hg.2.symm)]
    rfl
  have hsub : (fs.filter (isAt steps)).Sublist (sort fs) :=
    List.sublist_mergeSort notBehind_trans notBehind_total hsame List.filter_sublist
  have hlen : (fs.filter (isAt steps)).length = ((sort fs).filter (isAt steps)).length :=
    ((List.mergeSort_perm fs notBehind).filter (isAt steps)).length_eq.symm
  have hfilter := hsub.filter (isAt steps)
  rw [List.filter_filter] at hfilter
  simp only [Bool.and_self] at hfilter
  exact (hfilter.eq_of_length hlen).symm

theorem dropRepeats_cons (f : ScannedFile) (fs : List ScannedFile) :
    dropRepeats (f :: fs) = f :: match dropRepeats fs with
      | [] => []
      | g :: gs => if f.path.same g.path then gs else g :: gs := by
  rw [dropRepeats]
  cases dropRepeats fs with
  | nil => rfl
  | cons g gs =>
    dsimp only
    split <;> rfl

theorem dropRepeats_sublist (fs : List ScannedFile) : (dropRepeats fs).Sublist fs := by
  induction fs with
  | nil => exact List.Sublist.refl _
  | cons f fs ih =>
    rw [dropRepeats_cons]
    refine List.Sublist.cons_cons f ?_
    cases hr : dropRepeats fs with
    | nil => exact List.nil_sublist _
    | cons g gs =>
      rw [hr] at ih
      dsimp only
      split
      · exact (List.sublist_cons_self g gs).trans ih
      · exact ih

theorem pairwise_dropRepeats (h : fs.Pairwise fun f g => notBehind f g = true) :
    (dropRepeats fs).Pairwise fun f g => f.path.cmp g.path = .lt := by
  induction fs with
  | nil => exact .nil
  | cons f fs ih =>
    obtain ⟨hf, hfs⟩ := List.pairwise_cons.mp h
    have hrest := ih hfs
    have hsub := dropRepeats_sublist fs
    rw [dropRepeats_cons]
    cases hr : dropRepeats fs with
    | nil => exact List.pairwise_singleton _ _
    | cons g gs =>
      rw [hr] at hrest hsub
      obtain ⟨hg, hgs⟩ := List.pairwise_cons.mp hrest
      dsimp only
      split
      · rename_i hsame
        refine List.pairwise_cons.mpr ⟨?_, hgs⟩
        intro x hx
        rw [Path.cmp_congr (beq_iff_eq.mp hsame)]
        exact hg x hx
      · rename_i hne
        have hlt : f.path.cmp g.path = .lt := by
          have hle := hf g (hsub.subset List.mem_cons_self)
          rw [notBehind] at hle
          cases hc : f.path.cmp g.path with
          | lt => rfl
          | eq => exact absurd (beq_iff_eq.mpr (Path.cmp_eq_iff.mp hc)) hne
          | gt =>
            rw [hc] at hle
            cases hle
        refine List.pairwise_cons.mpr ⟨?_, hrest⟩
        intro x hx
        rcases List.mem_cons.mp hx with rfl | hx
        · exact hlt
        · exact Path.cmp_lt_trans hlt (hg x hx)

theorem not_isAt_of_lt {f g : ScannedFile} (h : f.path.cmp g.path = .lt)
    (hf : f.path.components = steps) : isAt steps g = false := by
  rw [isAt, beq_eq_false_iff_ne]
  intro hg
  rw [Path.cmp_eq_iff.mpr (hf.trans hg.symm)] at h
  cases h

theorem filter_dropRepeats (steps : List Component)
    (h : fs.Pairwise fun f g => notBehind f g = true) :
    (dropRepeats fs).filter (isAt steps) = (fs.filter (isAt steps)).take 1 := by
  induction fs with
  | nil => rfl
  | cons f fs ih =>
    have hrest := ih (List.pairwise_cons.mp h).2
    have hlt := pairwise_dropRepeats h
    rw [dropRepeats_cons] at hlt ⊢
    by_cases hf : isAt steps f = true
    · have hnil := (List.pairwise_cons.mp hlt).1
      rw [List.filter_cons_of_pos hf, List.filter_cons_of_pos hf, List.take_succ_cons,
        List.take_zero, List.cons.injEq, eq_self, true_and, List.filter_eq_nil_iff]
      intro x hx
      rw [not_isAt_of_lt (hnil x hx) (isAt_iff.mp hf)]
      exact Bool.false_ne_true
    · rw [List.filter_cons_of_neg hf, List.filter_cons_of_neg hf, ← hrest]
      cases hr : dropRepeats fs with
      | nil => rfl
      | cons g gs =>
        dsimp only
        split
        · rename_i hsame
          have hg : ¬ isAt steps g = true := by
            rw [isAt_iff] at hf ⊢
            rwa [← beq_iff_eq.mp hsame]
          rw [List.filter_cons_of_neg hg]
        · rfl

end Scan

end Scaffold
