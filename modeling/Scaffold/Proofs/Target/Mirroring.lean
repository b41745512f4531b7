import Scaffold.Proofs.Path.Comparing
import Scaffold.Proofs.Target.Places

namespace Scaffold
set_option autoImplicit true

theorem filterMap_name? (names : List String) :
    (names.map Component.name).filterMap Component.name? = names := by
  rw [List.filterMap_map]
  exact List.filterMap_some

namespace TargetLayout

/-- The directories that the test class of a declaration in a file mirrors. The file's directory is
seen from the source base if it lies below it, else from the root of the scan. -/
inductive Mirrors (layout : TargetLayout) (f : ScannedFile) : List String → Prop where
  | base (h : f.path.parentComponents = layout.sourceBase.components ++ below) :
    Mirrors layout f (below.filterMap Component.name?)
  | root (hbase : ¬ layout.sourceBase.components <+: f.path.parentComponents)
      (h : f.path.parentComponents = f.root.components ++ below) :
    Mirrors layout f (below.filterMap Component.name?)
  | outside (hbase : ¬ layout.sourceBase.components <+: f.path.parentComponents)
      (hroot : ¬ f.root.components <+: f.path.parentComponents) :
    Mirrors layout f []

variable {layout : TargetLayout} {f g : ScannedFile}

theorem Mirrors.directories_eq (h : layout.Mirrors f names) : layout.directories f = names := by
  rw [directories]
  cases h with
  | base h => rw [Path.componentsBelow?_eq_some_iff.mpr h]; rfl
  | root hbase h =>
    rw [Path.componentsBelow?_eq_none_iff.mpr hbase, Path.componentsBelow?_eq_some_iff.mpr h]
    rfl
  | outside hbase hroot =>
    rw [Path.componentsBelow?_eq_none_iff.mpr hbase, Path.componentsBelow?_eq_none_iff.mpr hroot]
    rfl

theorem mirrors_directories (layout : TargetLayout) (f : ScannedFile) :
    layout.Mirrors f (layout.directories f) := by
  rw [directories]
  cases hbase : layout.sourceBase.componentsBelow? f.path.parentComponents with
  | some below => exact .base (Path.componentsBelow?_eq_some_iff.mp hbase)
  | none =>
    rw [Path.componentsBelow?_eq_none_iff] at hbase
    cases hroot : f.root.componentsBelow? f.path.parentComponents with
    | some below => exact .root hbase (Path.componentsBelow?_eq_some_iff.mp hroot)
    | none => exact .outside hbase (Path.componentsBelow?_eq_none_iff.mp hroot)

theorem mirrors_iff : layout.Mirrors f names ↔ names = layout.directories f := by
  constructor
  · intro h
    exact h.directories_eq.symm
  · rintro rfl
    exact layout.mirrors_directories f

theorem directories_below
    (h : f.path.parentComponents = layout.sourceBase.components ++ names.map .name) :
    layout.directories f = names := by
  rw [(Mirrors.base h).directories_eq, filterMap_name?]

theorem namespaceOf_directories (layout : TargetLayout) (f : ScannedFile) :
    layout.namespaceOf (layout.directories f) = "\\".intercalate
      ((if layout.namespaceRoot = "" then [] else [layout.namespaceRoot]) ++
        layout.directories f) := by
  have hproper : (layout.directories f).filter (!·.isEmpty) = layout.directories f := by
    rw [List.filter_eq_self]
    intro n hn
    simpa using (proper_of_mem_directories hn).ne_empty
  rw [namespaceOf, List.filter_cons, hproper]
  by_cases hempty : layout.namespaceRoot = ""
  · simp [hempty]
  · simp [hempty]

theorem fileName_eq (name ext : String) :
    name ++ Naming.testClassSuffix ++ "." ++ ext = name ++ "Test." ++ ext := by
  have hsuffix : Naming.testClassSuffix ++ "." = "Test." := by decide
  simp only [← hsuffix, String.append_assoc]

theorem fileName_inj {a b ext : String} :
    a ++ Naming.testClassSuffix ++ "." ++ ext = b ++ Naming.testClassSuffix ++ "." ++ ext ↔
      a = b := by
  simp only [String.append_assoc, String.append_left_inj]

theorem concat_inj {l l' : List α} : l ++ [a] = l' ++ [b] ↔ l = l' ∧ a = b := by
  constructor
  · intro h
    obtain ⟨hl, hab⟩ := List.append_inj' h rfl
    exact ⟨hl, List.singleton_inj.mp hab⟩
  · rintro ⟨rfl, rfl⟩
    rfl

/-- A test class stands in the directory of tests below the directories that it mirrors, with a
file name of its own, and in the namespace of these directories. Of sources below the base, with
names only from there on, two declarations share a test file exactly if they have the same name and
stand in the same directory. -/
theorem resolve_mirrors (layout : TargetLayout) (f : ScannedFile) (c : Declaration)
    (hname : '/' ∉ c.name.toList) (hext : '/' ∉ layout.extension.toList) :
    (∃ names, (∀ other, layout.Mirrors f other ↔ other = names) ∧
      (layout.resolve f c).path.components = layout.testDirectory.components ++
        names.map .name ++ [.name (c.name ++ "Test." ++ layout.extension)] ∧
      (layout.resolve f c).namesp = "\\".intercalate
        ((if layout.namespaceRoot = "" then [] else [layout.namespaceRoot]) ++ names)) ∧
    ∀ (g : ScannedFile) (e : Declaration) (below below' : List String), '/' ∉ e.name.toList →
      f.path.parentComponents = layout.sourceBase.components ++ below.map .name →
      g.path.parentComponents = layout.sourceBase.components ++ below'.map .name →
      ((layout.resolve f c).path.same (layout.resolve g e).path = true ↔
        below = below' ∧ c.name = e.name) := by
  have hfile := layout.components_resolve f hname hext
  refine ⟨⟨layout.directories f, fun other => mirrors_iff, ?_, ?_⟩, ?_⟩
  · rw [hfile, fileName_eq, List.map_append, List.append_assoc]
    rfl
  · exact layout.namespaceOf_directories f
  · intro g e below below' hname' hf hg
    rw [same_iff, hfile, layout.components_resolve g hname' hext, List.append_cancel_left_eq,
      directories_below hf, directories_below hg,
      List.map_inj_right fun _ _ => Component.name.inj, concat_inj, fileName_inj]

/-- Paths in several spellings: the tests go to the working directory. -/
theorem resolve_mirrors_spelled :
    let layout : TargetLayout := ⟨⟨"./app/"⟩, "", ⟨""⟩, "php"⟩
    let f : ScannedFile := ⟨⟨"./app//Billing/./Net/Invoice.php"⟩, ⟨"./app"⟩⟩
    let g : ScannedFile := ⟨⟨"./app/Billing/Net/Total.php"⟩, ⟨"./app/Billing"⟩⟩
    let c : Declaration := ⟨"Invoice", none, .isClass, [], none⟩
    (layout.resolve f c).path.components =
        [.name "Billing", .name "Net", .name "InvoiceTest.php"] ∧
      (layout.resolve f c).namesp = "Billing\\Net" ∧
      (layout.resolve f c).path.same (layout.resolve g c).path = true := by
  intro layout f g c
  obtain ⟨⟨names, hnames, hpath, hnamesp⟩, hsame⟩ :=
    resolve_mirrors layout f c (by decide) (by decide)
  have hf : f.path.parentComponents =
      layout.sourceBase.components ++ ["Billing", "Net"].map .name := by decide
  have hg : g.path.parentComponents =
      layout.sourceBase.components ++ ["Billing", "Net"].map .name := by decide
  obtain rfl := (hnames _).mp (.base hf)
  exact ⟨hpath, hnamesp, (hsame g c _ _ (by decide) hf hg).mpr ⟨rfl, rfl⟩⟩

end TargetLayout

end Scaffold
