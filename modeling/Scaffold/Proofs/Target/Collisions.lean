import Mathlib.Data.List.FinRange
import Scaffold.Proofs.Target.Places

namespace Scaffold
set_option autoImplicit true

theorem countP_lt_two_iff [DecidableEq α] {p : α → Bool} {l : List α} (hl : l.Nodup) (hx : x ∈ l)
    (hp : p x = true) : l.countP p < 2 ↔ ∀ y ∈ l, y ≠ x → p y = false := by
  have hperm := List.perm_cons_erase hx
  have hcount : l.countP p = (l.erase x).countP p + 1 := by
    rw [hperm.countP_eq, List.countP_cons, if_pos hp]
  have hzero : l.countP p < 2 ↔ (l.erase x).countP p = 0 := by omega
  rw [hzero, List.countP_eq_zero]
  simp only [hl.mem_erase_iff, Bool.not_eq_true]
  constructor
  · intro h y hy hne
    exact h y ⟨hne, hy⟩
  · rintro h y ⟨hne, hy⟩
    exact h y hy hne

theorem countP_eq_finRange (p : α → Bool) (l : List α) :
    l.countP p = (List.finRange l.length).countP fun i => p l[i] := by
  conv_lhs => rw [← List.map_get_finRange l, List.countP_map]
  rfl

theorem countP_same_lt_two_iff (found : List TestTarget) (i : Fin found.length) :
    found.countP (fun u => u.path.same found[i].path) < 2 ↔
      ∀ j, j ≠ i → found[j].path.components ≠ found[i].path.components := by
  rw [countP_eq_finRange, countP_lt_two_iff (List.nodup_finRange _) (List.mem_finRange i)
    (by simp [same_iff])]
  simp [Path.same]

/-- What is kept are the places that claim their path alone, in order. -/
theorem dropCollisions_eq (found : List TestTarget) :
    dropCollisions found = ((List.finRange found.length).filter fun i =>
      ∀ j, j ≠ i → found[j].path.components ≠ found[i].path.components).map found.get := by
  rw [dropCollisions]
  conv_lhs => rw [← List.map_get_finRange found]
  rw [List.filter_map, List.map_get_finRange]
  congr 1
  apply List.filter_congr
  intro i _
  exact decide_eq_decide.mpr (countP_same_lt_two_iff found i)

theorem perm_dropCollisions (h : found.Perm other) :
    (dropCollisions found).Perm (dropCollisions other) := by
  have hcount : dropCollisions other =
      other.filter fun t => found.countP (fun u => u.path.same t.path) < 2 := by
    rw [dropCollisions]
    simp only [h.countP_eq]
  rw [hcount]
  exact h.filter _

theorem dropCollisions_dropCollisions (found : List TestTarget) :
    dropCollisions (dropCollisions found) = dropCollisions found := by
  rw [dropCollisions, List.filter_eq_self]
  intro t ht
  have hle := (List.filter_sublist : (dropCollisions found).Sublist found).countP_le
    (p := fun u => u.path.same t.path)
  exact decide_eq_true (Nat.lt_of_le_of_lt hle (mem_dropCollisions.mp ht).2)

/-- A target is kept exactly if no other place of the list has its path, whatever the spelling.
Those kept stay in order, no two of them have the same path, and no order of the list changes which
they are. Nothing more is dropped from them. -/
theorem collisions_dropped_exactly (found : List TestTarget) :
    dropCollisions found = ((List.finRange found.length).filter fun i =>
        ∀ j, j ≠ i → found[j].path.components ≠ found[i].path.components).map found.get ∧
      (dropCollisions found).Sublist found ∧
      ((dropCollisions found).Pairwise fun t u => t.path.components ≠ u.path.components) ∧
      (∀ other, found.Perm other → (dropCollisions found).Perm (dropCollisions other)) ∧
      dropCollisions (dropCollisions found) = dropCollisions found :=
  ⟨dropCollisions_eq found, List.filter_sublist, pairwise_dropCollisions found,
    fun _ => perm_dropCollisions, dropCollisions_dropCollisions found⟩

/-- Two spellings of one path around another path. -/
theorem collisions_dropped_spelled :
    let target (path : String) : TestTarget :=
      ⟨⟨"A.php"⟩, ⟨"A", none, .isClass, [], none⟩, "Tests", "ATest", ⟨path⟩⟩
    let found := [target "tests/ATest.php", target "tests/BTest.php", target "tests//./ATest.php"]
    dropCollisions found = [target "tests/BTest.php"] ∧
      (dropCollisions found).Perm (dropCollisions found.reverse) := by
  intro target found
  obtain ⟨hkept, _, _, hperm, _⟩ := collisions_dropped_exactly found
  refine ⟨?_, hperm found.reverse found.reverse_perm.symm⟩
  rw [hkept]
  decide

end Scaffold
