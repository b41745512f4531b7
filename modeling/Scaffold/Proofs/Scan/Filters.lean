import Mathlib.Data.List.TakeWhile
import Scaffold.Proofs.Path.Comparing
import Scaffold.Scan

namespace Scaffold
set_option autoImplicit true

theorem Text.contains_iff {s part : String} :
    Text.contains s part = true ↔ part.toList <:+: s.toList := by
  have hoccurs : ∀ cs, Text.occursIn part.toList cs = true ↔ part.toList <:+: cs := by
    intro cs
    induction cs with
    | nil => rw [Text.occursIn, List.isEmpty_iff, List.infix_nil]
    | cons c cs ih =>
      rw [Text.occursIn, Bool.or_eq_true, List.isPrefixOf_iff_prefix, ih, List.infix_cons_iff]
  exact hoccurs s.toList

namespace Path

theorem takeWhile_reverse_dot {stem ext : List Char} (h : '.' ∉ ext) :
    (stem ++ '.' :: ext).reverse.takeWhile (· != '.') = ext.reverse := by
  have hext : ∀ c ∈ ext.reverse, (c != '.') = true := by
    intro c hc
    rw [bne_iff_ne]
    rintro rfl
    exact h (List.mem_reverse.mp hc)
  rw [List.reverse_append, List.reverse_cons, List.append_assoc, List.takeWhile_append_of_pos hext,
    List.singleton_append, List.takeWhile_cons_of_neg (by decide), List.append_nil]

theorem exists_last_dot {cs : List Char}
    (h : 1 < cs.length - (cs.reverse.takeWhile (· != '.')).length) :
    ∃ stem ext, cs = stem ++ '.' :: ext ∧ stem ≠ [] ∧ '.' ∉ ext ∧
      cs.reverse.takeWhile (· != '.') = ext.reverse := by
  have hsplit : cs.reverse.takeWhile (· != '.') ++ cs.reverse.dropWhile (· != '.') = cs.reverse :=
    List.takeWhile_append_dropWhile
  have hdot : '.' ∉ (cs.reverse.takeWhile (· != '.')).reverse := by
    intro hm
    exact absurd (List.mem_takeWhile_imp (List.mem_reverse.mp hm)) (by decide)
  have hhead := List.head?_dropWhile_not (· != '.') cs.reverse
  generalize cs.reverse.takeWhile (· != '.') = tail at *
  cases hdrop : cs.reverse.dropWhile (· != '.') with
  | nil =>
    rw [hdrop, List.append_nil] at hsplit
    rw [hsplit, List.length_reverse] at h
    omega
  | cons c front =>
    rw [hdrop] at hhead hsplit
    obtain rfl : c = '.' := by simpa using hhead
    have hcs : cs = front.reverse ++ '.' :: tail.reverse := by
      rw [← List.reverse_reverse cs, ← hsplit]
      simp
    refine ⟨front.reverse, _, hcs, ?_, hdot, (List.reverse_reverse _).symm⟩
    intro hnil
    rw [hcs, hnil] at h
    simp at h

/-- The extension is what stands behind the last dot, which is not at the front. -/
theorem extension?_eq_some_iff {p : Path} : p.extension? = some ext ↔
    ∃ stem, p.fileName? = some (stem ++ "." ++ ext) ∧ stem ≠ "" ∧ '.' ∉ ext.toList := by
  rw [extension?]
  cases p.fileName? with
  | none => simp
  | some name =>
    simp only [Option.bind_some, Option.some.injEq]
    constructor
    · intro h
      split at h
      · cases h
      · rename_i hrest
        obtain ⟨stem, tail, hname, hstem, hdot, htail⟩ := exists_last_dot (Nat.lt_of_not_le hrest)
        rw [htail, List.reverse_reverse, Option.some.injEq] at h
        subst h
        refine ⟨.ofList stem, ?_, ?_, by simpa using hdot⟩
        · simp [← String.toList_inj, hname]
        · simpa using hstem
    · rintro ⟨stem, rfl, hstem, hdot⟩
      have hlist : (stem ++ "." ++ ext).toList = stem.toList ++ '.' :: ext.toList := by simp
      have hlen : stem.toList.length ≠ 0 := by simpa using hstem
      rw [hlist, takeWhile_reverse_dot hdot, if_neg]
      · simp
      · simp only [List.length_append, List.length_cons, List.length_reverse]
        omega

end Path

namespace Scan

theorem exclusion?_eq_none_iff {f : ScannedFile} : exclusion? exclude f = none ↔
    ∀ pattern ∈ exclude, ¬ pattern.toList <:+: (relativeText f.root f.path).toList := by
  rw [exclusion?, List.find?_eq_none]
  simp only [Text.contains_iff]

theorem relativeText_eq {root path : Path}
    (h : path.components = root.components ++ below) :
    relativeText root path = "/".intercalate (below.map Component.text) := by
  rw [relativeText, Path.componentsBelow?_eq_some_iff.mpr h]
  rfl

end Scan

end Scaffold
