import Scaffold.Proofs.Disk.Listing
import Scaffold.Proofs.Scan.Filters
import Scaffold.Proofs.Scan.Order

namespace Scaffold
set_option autoImplicit true

namespace Scan

section Admission

def walk (d : Disk) (root : Path) : List Path :=
  if isStandardInput root then [] else d.filesBelow root

/-- A root that is a directory lets a path pass: the walk below it gives the path, which has the
extension, and no pattern occurs in what leads from the root to it. -/
structure Admits (d : Disk) (extension : String) (exclude : List String) (root path : Path) :
    Prop where
  directory : d.isDirectory root = true
  walked : path ∈ walk d root
  extension : ∃ stem, path.fileName? = some (stem ++ "." ++ extension) ∧ stem ≠ "" ∧
    '.' ∉ extension.toList
  free : ∃ names, path.components = root.components ++ names.map .name ∧
    ∀ pattern ∈ exclude, ¬ pattern.toList <:+: ("/".intercalate names).toList

/-- The files that a root lets pass. -/
def admitted (d : Disk) (extension : String) (exclude : List String) (root : Path) :
    List ScannedFile :=
  if d.isDirectory root then
    (candidates d extension root).filter fun f => (exclusion? exclude f).isNone
  else []

variable {d : Disk}

theorem filter_allCandidates (d : Disk) (roots : List Path) (extension : String)
    (exclude : List String) :
    (allCandidates d roots extension).filter (fun f => (exclusion? exclude f).isNone) =
      roots.flatMap (admitted d extension exclude) := by
  induction roots with
  | nil => rfl
  | cons root roots ih =>
    rw [List.flatMap_cons, ← ih, admitted, allCandidates, allCandidates]
    by_cases hdir : d.isDirectory root = true
    · rw [List.filter_cons_of_pos hdir, List.flatMap_cons, List.filter_append, if_pos hdir]
    · rw [List.filter_cons_of_neg hdir, if_neg hdir, List.nil_append]

theorem candidates_eq (d : Disk) (extension : String) (root : Path) :
    candidates d extension root =
      ((walk d root).filter fun p => p.extension? == some extension).map fun p => ⟨p, root⟩ := by
  rw [candidates, walk]
  split <;> rfl

/-- The walk below a directory gives the files to which visible names lead from it. -/
theorem mem_walk {root p : Path} (hr : isStandardInput root = false)
    (hf : d.find root true = .ok (.present l .directory)) :
    p ∈ walk d root ↔ ∃ ns, d.Shows l ns ∧ p = ns.foldl (fun q n => q.join ⟨n⟩) root := by
  rw [walk, if_neg (by simp [hr]), Disk.mem_filesBelow hf]

theorem components_of_mem_walk {root p : Path} (hd : d.Named) (hdir : d.isDirectory root = true)
    (hp : p ∈ walk d root) :
    ∃ names : List String, p.components = root.components ++ names.map .name := by
  obtain ⟨l, hf⟩ := Disk.exists_of_isDirectory hdir
  cases hr : isStandardInput root with
  | true =>
    rw [walk, if_pos hr] at hp
    cases hp
  | false =>
    obtain ⟨ns, hs, rfl⟩ := (mem_walk hr hf).mp hp
    exact ⟨ns, Path.components_foldl_join (fun n => hs.proper hd) root⟩

theorem text_name (names : List String) :
    (names.map Component.name).map Component.text = names := by
  rw [List.map_map]
  exact List.map_id names

theorem mem_admitted {root : Path} {f : ScannedFile} (hd : d.Named) :
    f ∈ admitted d extension exclude root ↔
      f.root = root ∧ Admits d extension exclude root f.path := by
  rw [admitted]
  split
  · rename_i hdir
    rw [List.mem_filter, candidates_eq, List.mem_map, Option.isNone_iff_eq_none,
      exclusion?_eq_none_iff]
    constructor
    · rintro ⟨⟨p, hp, rfl⟩, hfree⟩
      obtain ⟨hp, hext⟩ := List.mem_filter.mp hp
      obtain ⟨names, hnames⟩ := components_of_mem_walk hd hdir hp
      rw [relativeText_eq hnames, text_name] at hfree
      exact ⟨rfl, hdir, hp, Path.extension?_eq_some_iff.mp (beq_iff_eq.mp hext), names, hnames,
        hfree⟩
    · rintro ⟨rfl, h⟩
      obtain ⟨names, hnames, hfree⟩ := h.free
      rw [relativeText_eq hnames, text_name]
      refine ⟨⟨f.path, List.mem_filter.mpr ⟨h.walked, ?_⟩, rfl⟩, hfree⟩
      exact beq_iff_eq.mpr (Path.extension?_eq_some_iff.mpr h.extension)
  · rename_i hdir
    refine ⟨nofun, ?_⟩
    rintro ⟨_, h⟩
    exact absurd h.directory hdir

end Admission

theorem find?_scan (d : Disk) (roots : List Path) (extension : String) (exclude : List String)
    (steps : List Component) :
    (scan d roots extension exclude).find? (isAt steps) =
      roots.findSome? fun root => (admitted d extension exclude root).find? (isAt steps) := by
  rw [scan, filter_allCandidates, ← List.head?_filter, filter_dropRepeats steps (pairwise_sort _),
    filter_sort, List.head?_take, if_neg Nat.one_ne_zero, List.head?_filter, List.find?_flatMap]

theorem pairwise_scan (d : Disk) (roots : List Path) (extension : String) (exclude : List String) :
    (scan d roots extension exclude).Pairwise fun f g => f.path.cmp g.path = .lt :=
  pairwise_dropRepeats (pairwise_sort _)

theorem find?_of_mem_scan (h : f ∈ scan d roots extension exclude) :
    (scan d roots extension exclude).find? (isAt f.path.components) = some f := by
  obtain ⟨front, back, hs⟩ := List.append_of_mem h
  have hlt := pairwise_scan d roots extension exclude
  rw [hs] at hlt ⊢
  have hfront := (List.pairwise_append.mp hlt).2.2
  rw [List.find?_append, List.find?_eq_none.mpr, Option.none_or,
    List.find?_cons_of_pos (isAt_iff.mpr rfl)]
  intro g hg hat
  have hgf := hfront g hg f List.mem_cons_self
  rw [Path.cmp_eq_iff.mpr (isAt_iff.mp hat)] at hgf
  cases hgf

variable {d : Disk}

theorem exists_scanned_iff (hd : d.Named) (steps : List Component) :
    (∃ f ∈ scan d roots extension exclude, f.path.components = steps) ↔
      ∃ root ∈ roots, ∃ p, Admits d extension exclude root p ∧ p.components = steps := by
  have hfound : (∃ f ∈ scan d roots extension exclude, f.path.components = steps) ↔
      ∃ root ∈ roots, ∃ f ∈ admitted d extension exclude root, f.path.components = steps := by
    have hsome := congrArg Option.isSome (find?_scan d roots extension exclude steps)
    rw [Bool.eq_iff_iff] at hsome
    simpa only [List.find?_isSome, List.findSome?_isSome_iff, isAt_iff] using hsome
  rw [hfound]
  refine exists_congr fun root => and_congr_right fun _ => ?_
  constructor
  · rintro ⟨f, hf, hsteps⟩
    exact ⟨f.path, ((mem_admitted hd).mp hf).2, hsteps⟩
  · rintro ⟨p, hp, hsteps⟩
    exact ⟨⟨p, root⟩, (mem_admitted hd).mpr ⟨rfl, hp⟩, hsteps⟩

/-- Noted with a file is the first root that lets its path pass. -/
theorem first_of_mem_scan (hd : d.Named) (h : f ∈ scan d roots extension exclude) :
    Admits d extension exclude f.root f.path ∧ ∃ front back, roots = front ++ f.root :: back ∧
      ∀ root ∈ front, ∀ p, Admits d extension exclude root p →
        p.components ≠ f.path.components := by
  have hfind := find?_of_mem_scan h
  rw [find?_scan] at hfind
  obtain ⟨front, root, back, hroots, hroot, hfront⟩ := List.findSome?_eq_some_iff.mp hfind
  obtain ⟨rfl, hadmits⟩ := (mem_admitted hd).mp (List.mem_of_find?_eq_some hroot)
  refine ⟨hadmits, front, back, hroots, ?_⟩
  intro root hmem p hp hsteps
  have hmiss := List.find?_eq_none.mp (hfront root hmem)
  exact hmiss ⟨p, root⟩ ((mem_admitted hd).mpr ⟨rfl, hp⟩) (isAt_iff.mpr hsteps)

theorem nodup_components_scan (d : Disk) (roots : List Path) (extension : String)
    (exclude : List String) :
    ((scan d roots extension exclude).map (·.path.components)).Nodup := by
  rw [List.Nodup, List.pairwise_map]
  refine (pairwise_scan d roots extension exclude).imp ?_
  intro f g hlt hsame
  rw [Path.cmp_eq_iff.mpr hsame] at hlt
  cases hlt

/-- The paths that are found are the same for the roots in any order. -/
theorem components_scan_of_perm (hd : d.Named) (h : roots.Perm others) :
    (scan d others extension exclude).map (·.path.components) =
      (scan d roots extension exclude).map (·.path.components) := by
  have hsorted : ∀ roots, ((scan d roots extension exclude).map (·.path.components)).Pairwise
      fun a b => Component.cmpAll a b = .lt :=
    fun roots => List.pairwise_map.mpr (pairwise_scan d roots extension exclude)
  have hmem : ∀ steps, steps ∈ (scan d others extension exclude).map (·.path.components) ↔
      steps ∈ (scan d roots extension exclude).map (·.path.components) := by
    intro steps
    rw [List.mem_map, List.mem_map, exists_scanned_iff hd, exists_scanned_iff hd]
    exact exists_congr fun root => and_congr_left fun _ => h.symm.mem_iff
  have hperm := (List.perm_ext_iff_of_nodup (nodup_components_scan d others extension exclude)
    (nodup_components_scan d roots extension exclude)).mpr hmem
  -- two lists in strict order that have the same members are the same
  refine hperm.eq_of_pairwise ?_ (hsorted others) (hsorted roots)
  intro a b _ _ hab hba
  exact absurd hba (Std.OrientedCmp.not_lt_of_lt hab)

end Scan

/-- A scan finds the files that a root lets pass, each once and in the order of their paths, and
notes with each the first such root. So the paths that it finds do not depend on the order of the
roots, and a file that a pattern keeps out below one root may be found below another one. -/
theorem scan_selects {d : Disk} (hd : d.Named) (roots : List Path) (extension : String)
    (exclude : List String) :
    (∀ root l, Scan.isStandardInput root = false → d.find root true = .ok (.present l .directory) →
      ∀ p, p ∈ Scan.walk d root ↔
        ∃ ns, d.Shows l ns ∧ p = ns.foldl (fun q n => q.join ⟨n⟩) root) ∧
    (scan d roots extension exclude).Pairwise (fun f g => f.path.cmp g.path = .lt) ∧
    ((scan d roots extension exclude).map (·.path.components)).Nodup ∧
    (∀ steps, (∃ f ∈ scan d roots extension exclude, f.path.components = steps) ↔
      ∃ root ∈ roots, ∃ p, Scan.Admits d extension exclude root p ∧ p.components = steps) ∧
    (∀ f ∈ scan d roots extension exclude, Scan.Admits d extension exclude f.root f.path ∧
      ∃ front back, roots = front ++ f.root :: back ∧
        ∀ root ∈ front, ∀ p, Scan.Admits d extension exclude root p →
          p.components ≠ f.path.components) ∧
    ∀ others, roots.Perm others →
      (scan d others extension exclude).map (·.path.components) =
        (scan d roots extension exclude).map (·.path.components) :=
  ⟨fun _ _ hr hf _ => Scan.mem_walk hr hf, Scan.pairwise_scan d roots extension exclude,
    Scan.nodup_components_scan d roots extension exclude, Scan.exists_scanned_iff hd,
    fun _ => Scan.first_of_mem_scan hd, fun _ => Scan.components_scan_of_perm hd⟩

/-- A file that a pattern keeps out below the first root is found below the second one. -/
theorem scan_selects_overlapping :
    let d : Disk := ⟨[], [(["app"], .directory), (["app", "S"], .directory),
      (["app", "S", "Foo.php"], .file ⟨#[]⟩), (["app", "S", ".Bar.php"], .file ⟨#[]⟩)]⟩
    let roots : List Path := [⟨"app"⟩, ⟨"app/S"⟩]
    let found : Path := ⟨"app/S/Foo.php"⟩
    d.Named ∧ scan d roots "php" ["S"] = [⟨found, ⟨"app/S"⟩⟩] ∧
      ¬ Scan.Admits d "php" ["S"] ⟨"app"⟩ found ∧
      (scan d roots.reverse "php" ["S"]).map (·.path.components) = [found.components] := by
  intro d roots found
  have hd : d.Named := by decide
  have hscan : scan d roots "php" ["S"] = [⟨found, ⟨"app/S"⟩⟩] := by decide +kernel
  obtain ⟨_, _, _, _, hnoted, hperm⟩ := scan_selects hd roots "php" ["S"]
  obtain ⟨_, front, back, hroots, hfront⟩ :=
    hnoted ⟨found, ⟨"app/S"⟩⟩ (hscan ▸ List.mem_singleton_self _)
  refine ⟨hd, hscan, ?_, ?_⟩
  · intro hadmits
    cases front with
    | nil => exact absurd (List.cons.inj hroots).1 (by decide)
    | cons root front =>
      obtain ⟨rfl, _⟩ := List.cons.inj hroots
      exact hfront _ List.mem_cons_self found hadmits rfl
  · rw [hperm _ roots.reverse_perm.symm, hscan]
    rfl

end Scaffold
