import Mathlib.Data.List.Nodup
import Scaffold.Plan
import Scaffold.Proofs.Extraction.Methods
import Scaffold.Proofs.Naming.TestName

namespace Scaffold
set_option autoImplicit true

theorem mem_firstOccurrences : n ∈ firstOccurrences seen ns ↔ n ∈ ns ∧ n ∉ seen := by
  induction ns generalizing seen with
  | nil => simp [firstOccurrences]
  | cons a ns ih =>
    rw [firstOccurrences]
    split
    · rename_i ha
      rw [List.contains_iff_mem] at ha
      rw [ih, List.mem_cons]
      constructor
      · exact fun h => ⟨.inr h.1, h.2⟩
      · rintro ⟨rfl | h, hn⟩
        · exact absurd ha hn
        · exact ⟨h, hn⟩
    · rename_i ha
      rw [List.contains_iff_mem] at ha
      rw [List.mem_cons, ih, List.mem_cons, List.mem_cons]
      constructor
      · rintro (rfl | ⟨h, hn⟩)
        · exact ⟨.inl rfl, ha⟩
        · exact ⟨.inr h, fun hs => hn (.inr hs)⟩
      · rintro ⟨h, hn⟩
        by_cases he : n = a
        · exact .inl he
        · exact .inr ⟨h.resolve_left he, fun hs => hs.elim he hn⟩

theorem nodup_firstOccurrences (seen ns : List String) : (firstOccurrences seen ns).Nodup := by
  induction ns generalizing seen with
  | nil => exact List.nodup_nil
  | cons a ns ih =>
    rw [firstOccurrences]
    split
    · exact ih seen
    · refine List.nodup_cons.mpr ⟨?_, ih _⟩
      intro h
      exact (mem_firstOccurrences.mp h).2 List.mem_cons_self

theorem length_firstOccurrences_le (seen ns : List String) :
    (firstOccurrences seen ns).length ≤ ns.length := by
  induction ns generalizing seen with
  | nil => exact Nat.le_refl _
  | cons n ns ih =>
    rw [firstOccurrences]
    split
    · exact Nat.le_succ_of_le (ih seen)
    · exact Nat.succ_le_succ (ih _)

theorem Declaration.exists_of_mem_requiredTests {d : Declaration}
    (h : n ∈ d.requiredTests format) : ∃ method, n = Naming.testMethodName format method := by
  obtain ⟨x, _, rfl⟩ := List.mem_map.mp (mem_firstOccurrences.mp h).1
  exact ⟨x.name, rfl⟩

/-- The plan for a declaration against a tree, which stems from the test file or is the
skeleton's. -/
def TestPlan.against (t : SyntaxTree) (d : Declaration) (className : String)
    (format : MethodFormat) (fromFile : Bool) : TestPlan where
  required := d.requiredTests format
  existing := if fromFile then t.existingTests className format else []
  tree := t
  isExisting := fromFile

/-- A plan is made against the tree of the test file if there is one, else against the skeleton. -/
theorem plan_eq_against (disk : Disk) (target : TestTarget) (template : Template)
    (format : MethodFormat) :
    plan disk target template format =
      if disk.isFile target.path then
        (disk.parse target.path).map fun t =>
          .against t target.declaration target.className format true
      else .ok (.against template.tree target.declaration target.className format false) := by
  rw [plan]
  split
  · cases disk.parse target.path <;> rfl
  · rfl

theorem exists_against_of_plan {disk : Disk} {target : TestTarget} {template : Template}
    (h : plan disk target template format = .ok p) :
    ∃ t, p = .against t target.declaration target.className format (disk.isFile target.path) ∧
      if disk.isFile target.path then disk.parse target.path = .ok t else t = template.tree := by
  rw [plan_eq_against] at h
  cases hfile : disk.isFile target.path with
  | true =>
    rw [hfile, if_pos rfl] at h
    cases hparse : disk.parse target.path with
    | error fault =>
      rw [hparse] at h
      cases h
    | ok t =>
      rw [hparse] at h
      exact ⟨t, (Except.ok.inj h).symm, rfl⟩
  | false =>
    rw [hfile, if_neg (by decide)] at h
    exact ⟨template.tree, (Except.ok.inj h).symm, rfl⟩

/-- A name that is in the convention and can stand in source. -/
structure Naming.Settled (format : MethodFormat) (n : String) : Prop where
  normalize_eq : Naming.normalize format n = n
  trim_eq : Text.trim n = n
  is_test : Naming.isTestName n = true
  ne_empty : n ≠ ""

theorem Declaration.settled_of_mem_requiredTests {d : Declaration}
    (h : n ∈ d.requiredTests format) : Naming.Settled format n := by
  obtain ⟨method, rfl⟩ := d.exists_of_mem_requiredTests h
  exact ⟨Naming.normalize_testMethodName .., Naming.trim_testMethodName ..,
    Naming.isTestName_testMethodName .., Naming.testMethodName_ne_empty format method⟩

namespace TestPlan

theorem mem_missing {p : TestPlan} : n ∈ p.missing ↔ n ∈ p.required ∧ n ∉ p.existing := by
  simp [missing]

theorem isSatisfied_iff {p : TestPlan} :
    p.isSatisfied = true ↔ ∀ n ∈ p.required, n ∈ p.existing := by
  simp [isSatisfied, missing]

end TestPlan

namespace SyntaxTree

theorem mem_existingTests {t : SyntaxTree} {d : Declaration}
    (h : t.testClass? className = some d) :
    n ∈ t.existingTests className format ↔
      ∃ x ∈ d.methods, x.visibility = .isPublic ∧ Naming.normalize format x.name = n ∧
        Naming.isTestName n = true := by
  rw [existingTests, h]
  simp only [mem_firstOccurrences, List.mem_filter, List.mem_map, List.not_mem_nil,
    not_false_eq_true, and_true, beq_iff_eq]
  constructor
  · rintro ⟨⟨x, ⟨hx, hv⟩, rfl⟩, ht⟩
    exact ⟨x, hx, hv, rfl, ht⟩
  · rintro ⟨x, hx, hv, rfl, ht⟩
    exact ⟨⟨x, ⟨hx, hv⟩, rfl⟩, ht⟩

end SyntaxTree

end Scaffold
