import Scaffold.Proofs.Merge.Update
import Scaffold.Proofs.Plan.Names

namespace Scaffold
set_option autoImplicit true

theorem idxOf_cons_of_mem_firstOccurrences (ha : a ∈ seen) (hn : n ∈ firstOccurrences seen ns) :
    (a :: ns).idxOf n = ns.idxOf n + 1 := by
  refine List.idxOf_cons_ne _ ?_
  rintro rfl
  exact (mem_firstOccurrences.mp hn).2 ha

theorem pairwise_firstOccurrences (seen ns : List String) :
    (firstOccurrences seen ns).Pairwise fun a b => ns.idxOf a < ns.idxOf b := by
  induction ns generalizing seen with
  | nil => exact .nil
  | cons a ns ih =>
    -- Behind the head all positions shift by one.
    have htail : ∀ seen, a ∈ seen → (firstOccurrences seen ns).Pairwise fun b c =>
        (a :: ns).idxOf b < (a :: ns).idxOf c := by
      intro seen ha
      refine (ih seen).imp_of_mem ?_
      intro b c hb hc hlt
      rw [idxOf_cons_of_mem_firstOccurrences ha hb, idxOf_cons_of_mem_firstOccurrences ha hc]
      exact Nat.succ_lt_succ hlt
    rw [firstOccurrences]
    split
    · rename_i ha
      exact htail seen (List.contains_iff_mem.mp ha)
    · refine List.pairwise_cons.mpr ⟨?_, htail _ List.mem_cons_self⟩
      intro b hb
      rw [List.idxOf_cons_self, idxOf_cons_of_mem_firstOccurrences List.mem_cons_self hb]
      exact Nat.succ_pos _

namespace Declaration

/-- The place of the first method to test whose test has a name. -/
def firstTested (d : Declaration) (format : MethodFormat) (n : String) : Nat :=
  d.testable.findIdx fun m => Naming.testMethodName format m.name == n

theorem idxOf_map_testMethodName (d : Declaration) (format : MethodFormat) (n : String) :
    (d.testable.map fun m => Naming.testMethodName format m.name).idxOf n =
      d.firstTested format n := by
  rw [List.idxOf, List.findIdx_map]
  rfl

theorem mem_requiredTests {d : Declaration} :
    n ∈ d.requiredTests format ↔ ∃ m ∈ d.methods, m.visibility = .isPublic ∧
      m.isAbstract = false ∧ Naming.testMethodName format m.name = n := by
  simp [requiredTests, mem_firstOccurrences, testable, Method.isTestable, and_assoc]

theorem pairwise_requiredTests (d : Declaration) (format : MethodFormat) :
    (d.requiredTests format).Pairwise fun a b =>
      d.firstTested format a < d.firstTested format b := by
  refine (pairwise_firstOccurrences [] _).imp ?_
  intro a b hlt
  rwa [idxOf_map_testMethodName, idxOf_map_testMethodName] at hlt

end Declaration

namespace TestPlan

variable {t : SyntaxTree} {d : Declaration}

theorem existing_against_eq_nil (h : t.testClass? className = none) :
    (against t d className format true).existing = [] := by
  change t.existingTests className format = []
  rw [SyntaxTree.existingTests, h]

/-- A required test exists if a public method of the test class has its name. That the method is
one of a test goes without saying. -/
theorem mem_existing_against (hn : n ∈ d.requiredTests format) :
    n ∈ (against t d className format true).existing ↔
      ∃ c, t.testClass? className = some c ∧ ∃ k ∈ c.methods, k.visibility = .isPublic ∧
        Naming.normalize format k.name = n := by
  cases hc : t.testClass? className with
  | none => simp [existing_against_eq_nil hc]
  | some c =>
    have htest := (d.settled_of_mem_requiredTests hn).is_test
    change n ∈ t.existingTests className format ↔ _
    simp [SyntaxTree.mem_existingTests hc, htest]

theorem mem_missing_against :
    n ∈ (against t d className format fromFile).missing ↔ n ∈ d.requiredTests format ∧
      (fromFile = true → ∀ c, t.testClass? className = some c → ∀ k ∈ c.methods,
        k.visibility = .isPublic → Naming.normalize format k.name ≠ n) := by
  rw [mem_missing]
  refine and_congr_right fun hn => ?_
  cases fromFile with
  | false => simp [against]
  | true =>
    rw [mem_existing_against hn]
    simp

end TestPlan

/-- A plan asks for what is required and does not exist: a test is missing exactly if a public
method with a body gives its name and, should there be a test file, no public method of the test
class has that name in the convention. No name is there twice, and the tests come in the order in
which methods first ask for them. -/
theorem plan_is_difference (disk : Disk) (target : TestTarget) (template : Template)
    (format : MethodFormat) (p : TestPlan) (h : plan disk target template format = .ok p) :
    (disk.isFile target.path = true → disk.parse target.path = .ok p.tree) ∧
      (∀ n, n ∈ p.missing ↔
        (∃ m ∈ target.declaration.methods, m.visibility = .isPublic ∧ m.isAbstract = false ∧
          Naming.testMethodName format m.name = n) ∧
        (disk.isFile target.path = true →
          ∀ c, p.tree.testClass? target.className = some c → ∀ k ∈ c.methods,
            k.visibility = .isPublic → Naming.normalize format k.name ≠ n)) ∧
      (∀ n, n ∈ p.required ↔
        ∃ m ∈ target.declaration.methods, m.visibility = .isPublic ∧ m.isAbstract = false ∧
          Naming.testMethodName format m.name = n) ∧
      p.required.Nodup ∧ p.missing.Nodup ∧ p.missing.Sublist p.required ∧
      p.required.Pairwise fun a b =>
        target.declaration.firstTested format a < target.declaration.firstTested format b := by
  obtain ⟨t, rfl, htree⟩ := exists_against_of_plan h
  have hparse : disk.isFile target.path = true → disk.parse target.path = .ok t := by
    intro hfile
    rwa [if_pos hfile] at htree
  have hnodup : (target.declaration.requiredTests format).Nodup := nodup_firstOccurrences [] _
  refine ⟨hparse, ?_, fun n => Declaration.mem_requiredTests, hnodup, hnodup.filter _,
    List.filter_sublist, target.declaration.pairwise_requiredTests format⟩
  intro n
  rw [TestPlan.mem_missing_against, Declaration.mem_requiredTests]
  rfl

/-- A test class with a test for one method and a private method that looks like another. -/
def halfTested : Disk where
  workingDirectory := []
  entries :=
    [(["BTest.php"], .file (
      "<?php class BTest \x7b function testFooBar() \x7b\x7d " ++
        "private function test_baz() \x7b\x7d \x7d").toUTF8)]

/-- Two spellings of one method, another one, and two that are not to be tested. -/
def halfTestedTarget : TestTarget where
  sourcePath := ⟨"B.php"⟩
  declaration :=
    { name := "B"
      namesp := none
      kind := .isClass
      methods :=
        [⟨"fooBar", .isPublic, false, false⟩, ⟨"foo_bar", .isPublic, false, false⟩,
          ⟨"baz", .isPublic, false, false⟩, ⟨"qux", .isPrivate, false, false⟩,
          ⟨"corge", .isPublic, true, false⟩]
      span := none }
  namesp := "Tests"
  className := "BTest"
  path := ⟨"BTest.php"⟩

def emptySkeleton : Template :=
  ⟨⟨"Skeleton.php"⟩, SyntaxTree.emptyClass.lower "Skeleton.php" SyntaxTree.emptyClassSource⟩

theorem plan_is_difference_halfTested :
    ∃ p, plan halfTested halfTestedTarget emptySkeleton .snake = .ok p ∧
      p.required = ["test_foo_bar", "test_baz"] ∧ p.missing = ["test_baz"] ∧
      ∀ c, p.tree.testClass? "BTest" = some c → ∀ k ∈ c.methods, k.visibility = .isPublic →
        Naming.normalize .snake k.name ≠ "test_baz" := by
  have heval : (plan halfTested halfTestedTarget emptySkeleton .snake).toOption.map
      (fun p => (p.required, p.missing)) =
        some (["test_foo_bar", "test_baz"], ["test_baz"]) := by
    decide +kernel
  have hfile : halfTested.isFile halfTestedTarget.path = true := by decide +kernel
  cases h : plan halfTested halfTestedTarget emptySkeleton .snake with
  | error fault =>
    rw [h] at heval
    cases heval
  | ok p =>
    rw [h] at heval
    obtain ⟨hrequired, hmissing⟩ := Prod.mk.inj (Option.some.inj heval)
    obtain ⟨_, hiff, _⟩ :=
      plan_is_difference halfTested halfTestedTarget emptySkeleton .snake p h
    have hbaz : "test_baz" ∈ p.missing := by rw [hmissing]; exact List.mem_singleton_self _
    exact ⟨p, rfl, hrequired, hmissing, ((hiff "test_baz").mp hbaz).2 hfile⟩

end Scaffold
