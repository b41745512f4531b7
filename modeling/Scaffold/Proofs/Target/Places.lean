import Mathlib.Data.List.Pairwise
import Mathlib.Data.Set.List
import Scaffold.Proofs.Disk.Ground
import Scaffold.Target

namespace Scaffold
set_option autoImplicit true

theorem same_iff (t u : TestTarget) :
    t.path.same u.path = true ↔ t.path.components = u.path.components :=
  beq_iff_eq

theorem mem_dropCollisions :
    t ∈ dropCollisions found ↔ t ∈ found ∧ found.countP (fun u => u.path.same t.path) < 2 := by
  rw [dropCollisions, List.mem_filter, decide_eq_true_iff]

theorem mem_of_mem_dropCollisions (h : t ∈ dropCollisions found) : t ∈ found :=
  (mem_dropCollisions.mp h).1

/-- No two targets that are kept have the same path. -/
theorem pairwise_dropCollisions (found : List TestTarget) :
    (dropCollisions found).Pairwise fun t u => t.path.components ≠ u.path.components := by
  rw [List.pairwise_iff_forall_sublist]
  intro t u hsub hsame
  have hcount := (mem_dropCollisions.mp (hsub.subset List.mem_cons_self)).2
  have hpair : [t, u].countP (fun x => x.path.same t.path) = 2 := by
    simp [same_iff, hsame]
  have hle := (hsub.trans List.filter_sublist).countP_le (p := fun x => x.path.same t.path)
  omega

theorem eq_of_mem_dropCollisions (ht : t ∈ dropCollisions found) (hu : u ∈ dropCollisions found)
    (h : t.path.components = u.path.components) : t = u := by
  by_contra hne
  have : Std.Symm fun t u : TestTarget => t.path.components ≠ u.path.components :=
    ⟨fun _ _ => Ne.symm⟩
  exact (pairwise_dropCollisions found).forall ht hu hne h

theorem components_ne_of_mem_collisions (hc : c ∈ collisions found)
    (ht : t ∈ dropCollisions found) : c.path.components ≠ t.path.components := by
  intro hsame
  rw [collisions, List.mem_filter] at hc
  have hcount := (mem_dropCollisions.mp ht).2
  have hpath : (fun u : TestTarget => u.path.same c.path) = fun u => u.path.same t.path := by
    funext u
    rw [Path.same, Path.same, hsame]
  rw [hpath] at hc
  simp [hcount] at hc

/-- All targets lie below one directory that is there, and what leads on from it has names
only. -/
def Grounded (d : Disk) (targets : List TestTarget) : Prop :=
  ∃ front, (front = [] ∨ d.isDirectory (.ofComponents front) = true) ∧
    ∀ t ∈ targets, ∃ names, names ≠ [] ∧ t.path.components = front ++ names.map .name

theorem Grounded.dropCollisions (h : Grounded d found) : Grounded d (dropCollisions found) := by
  obtain ⟨front, hfront, htargets⟩ := h
  exact ⟨front, hfront, fun t ht => htargets t (mem_of_mem_dropCollisions ht)⟩

namespace Disk

variable {d : Disk}

theorem Plain.exists_ground (hd : d.Plain) (h : Grounded d targets) :
    ∃ G : Ground d, ∀ t ∈ targets, G.Bears t.path := by
  obtain ⟨front, hfront, htargets⟩ := h
  rcases hfront with rfl | hdir
  · exact ⟨⟨hd, [], d.workingDirectory, .inl ⟨rfl, rfl⟩⟩, htargets⟩
  · obtain ⟨base, hbase⟩ := exists_of_isDirectory hdir
    exact ⟨⟨hd, front, base, .inr hbase⟩, htargets⟩

variable {G : Ground d} {p q : Path}

theorem Ground.Bears.components_isPrefix (hp : G.Bears p) (hq : G.Bears q)
    (h : G.place p <+: G.place q) : p.components <+: q.components := by
  rw [hp.components, hq.components]
  exact (List.prefix_append_right_inj _).mpr (((List.prefix_append_right_inj _).mp h).map _)

theorem Ground.Bears.components_eq (hp : G.Bears p) (hq : G.Bears q)
    (h : G.place p = G.place q) : p.components = q.components := by
  rw [hp.components, hq.components, List.append_cancel_left h]

/-- The kept targets have places of their own. -/
theorem Ground.pairwise_places (found : List TestTarget) (h : ∀ t ∈ found, G.Bears t.path) :
    (dropCollisions found).Pairwise fun t u => G.place t.path ≠ G.place u.path := by
  apply (pairwise_dropCollisions found).imp_of_mem
  intro t u ht hu hne hplace
  exact hne ((h t (mem_of_mem_dropCollisions ht)).components_eq
    (h u (mem_of_mem_dropCollisions hu)) hplace)

end Disk

namespace TargetLayout

theorem proper_of_mem_directories {layout : TargetLayout} {f : ScannedFile}
    (h : n ∈ layout.directories f) : ProperName n := by
  obtain ⟨c, hc, hn⟩ := List.mem_filterMap.mp h
  have hbelow : ∀ {base : Path} {steps below}, base.componentsBelow? steps = some below →
      ∀ c ∈ below, c ∈ steps := by
    intro base steps below hsome c hc
    unfold Path.componentsBelow? at hsome
    split at hsome
    · cases hsome
      exact List.mem_of_mem_drop hc
    · cases hsome
  have hparent : c ∈ f.path.parentComponents := by
    cases hor : (layout.sourceBase.componentsBelow? f.path.parentComponents).or
        (f.root.componentsBelow? f.path.parentComponents) with
    | none =>
      rw [hor] at hc
      cases hc
    | some below =>
      rw [hor] at hc
      rcases Option.or_eq_some_iff.mp hor with hbase | ⟨_, hroot⟩
      · exact hbelow hbase c hc
      · exact hbelow hroot c hc
  cases c with
  | name m =>
    cases hn
    exact Path.proper_of_mem_components (List.dropLast_subset _ hparent)
  | root => cases hn
  | here => cases hn
  | up => cases hn

theorem proper_fileName {ext : String} (hname : '/' ∉ name.toList) (hext : '/' ∉ ext.toList) :
    ProperName (name ++ Naming.testClassSuffix ++ "." ++ ext) := by
  have hmem : 'T' ∈ (name ++ Naming.testClassSuffix ++ "." ++ ext).toList := by
    simp [Naming.testClassSuffix]
  have hslash : '/' ∉ (name ++ Naming.testClassSuffix ++ "." ++ ext).toList := by
    simp [Naming.testClassSuffix, hname, hext]
  refine ⟨?_, ?_, ?_, hslash⟩ <;>
  · intro heq
    rw [heq] at hmem
    revert hmem
    decide

/-- A name with an extension that has no step upwards goes on by names only. -/
theorem components_join_fileName {stem ext : String} (hstem : '/' ∉ stem.toList)
    (hletter : 'T' ∈ stem.toList) (hext : ".." ∉ (Path.mk ext).pieces.tail) (p : Path) :
    ∃ names : List String, (p.join ⟨stem ++ ext⟩).components =
      p.components ++ names.map .name := by
  obtain ⟨w, ws, hw⟩ := List.exists_cons_of_ne_nil (Path.mk ext).pieces_ne_nil
  have hpieces := Path.pieces_append hstem hw
  have hfirst : 'T' ∈ (stem ++ w).toList := by
    rw [String.toList_append]
    exact List.mem_append_left _ hletter
  have hne : ∀ s : String, 'T' ∉ s.toList → stem ++ w ≠ s := by
    rintro s hs rfl
    exact hs hfirst
  have hrelative : (Path.mk (stem ++ ext)).isAbsolute = false := by
    rw [Bool.eq_false_iff]
    intro habs
    obtain ⟨_, _, hroot⟩ := Path.pieces_of_isAbsolute habs
    rw [hpieces] at hroot
    exact hne "" (by decide) (List.cons.inj hroot).1
  have hdot : (Path.mk (stem ++ ext)).pieces.head? ≠ some "." := by
    rw [hpieces]
    intro hhead
    exact hne "." (by decide) (Option.some.inj hhead)
  have hnames : (Path.mk (stem ++ ext)).components ∈ Set.range (List.map Component.name) := by
    rw [Set.range_list_map]
    intro c hc
    rw [Path.components_of_relative hrelative hdot, hpieces] at hc
    obtain ⟨v, hv, hstep⟩ := List.mem_filterMap.mp hc
    rcases Path.step?_eq_some hstep with ⟨_, rfl⟩ | ⟨rfl, _⟩
    · rcases List.mem_cons.mp hv with hup | hup
      · exact absurd hup.symm (hne ".." (by decide))
      · rw [hw] at hext
        exact absurd hup hext
    · exact ⟨v, rfl⟩
  obtain ⟨names, hcomponents⟩ := hnames
  exact ⟨names, by rw [Path.components_join hrelative hdot, hcomponents]⟩

theorem exists_components_resolve (layout : TargetLayout) (f : ScannedFile)
    (hname : '/' ∉ c.name.toList) (hext : ".." ∉ (Path.mk layout.extension).pieces.tail) :
    ∃ names : List String, (layout.resolve f c).path.components =
      layout.testDirectory.components ++ names.map .name := by
  have hstem : '/' ∉ (c.name ++ Naming.testClassSuffix ++ ".").toList := by
    simp [Naming.testClassSuffix, hname]
  have hletter : 'T' ∈ (c.name ++ Naming.testClassSuffix ++ ".").toList := by
    simp [Naming.testClassSuffix]
  obtain ⟨names, hnames⟩ := components_join_fileName hstem hletter hext
    ((layout.directories f).foldl (fun p name => p.join ⟨name⟩) layout.testDirectory)
  refine ⟨layout.directories f ++ names, ?_⟩
  rw [resolve, hnames, Path.components_foldl_join fun n => proper_of_mem_directories,
    List.append_assoc, List.map_append]

/-- The path of a test class: the directory of tests, the directories of its source, a name. -/
theorem components_resolve (layout : TargetLayout) (f : ScannedFile)
    (hname : '/' ∉ c.name.toList) (hext : '/' ∉ layout.extension.toList) :
    (layout.resolve f c).path.components = layout.testDirectory.components ++
      (layout.directories f ++
        [c.name ++ Naming.testClassSuffix ++ "." ++ layout.extension]).map .name := by
  rw [resolve, Path.components_join_name (proper_fileName hname hext),
    Path.components_foldl_join fun n => proper_of_mem_directories, List.append_assoc,
    List.map_append, List.map_singleton]

end TargetLayout

end Scaffold
