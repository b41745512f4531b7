import Mathlib.Data.Finset.Card
import Scaffold.Proofs.Merge.Counting
import Scaffold.Proofs.Merge.Splicing
import Scaffold.Proofs.Run.Frame
import Scaffold.Proofs.Run.Writes

namespace Scaffold
set_option autoImplicit true

open Disk

namespace Generator

variable {g : Generator} {d D : Disk} {t : TestTarget} {files : List ScannedFile}

/-- The turns of a run that make or change a test class. -/
def writing (g : Generator) (d : Disk) (files : List ScannedFile) : List (Disk × TestTarget) :=
  (g.turns d (dropCollisions (g.targets d files))).filter fun x =>
    wasWritten (g.process x.1 x.2).result

/-- The tests that a target lacks when its turn comes. -/
def lacking (g : Generator) (x : Disk × TestTarget) : List String :=
  match g.planFor x.1 x.2 with
  | .ok p => p.missing
  | .error _ => []

theorem Adds.lacking_eq (h : g.Adds x p m) : g.lacking x = p.missing := by
  simp only [lacking, h.plan_eq]

theorem exists_adds_of_mem_writing (hx : x ∈ g.writing d files) : ∃ p m, g.Adds x p m :=
  exists_adds (List.mem_filter.mp hx).2

theorem count_eq (s : Summary) (p : Processed) :
    count s p = if wasWritten p.result then s.classUpdated (.ofNat p.added) else s := by
  cases hresult : p.result with
  | error e => simp [count, wasWritten, hresult]
  | ok o => cases o <;> simp [count, wasWritten, hresult]

theorem foldl_count (ps : List Processed) (s : Summary) :
    ps.foldl count s =
      { s with
        classesUpdated :=
          s.classesUpdated + .ofNat (ps.filter fun p => wasWritten p.result).length
        methodsAdded := s.methodsAdded +
          .ofNat ((ps.filter fun p => wasWritten p.result).map Processed.added).sum } := by
  induction ps generalizing s with
  | nil => simp
  | cons p ps ih =>
    rw [List.foldl_cons, ih, count_eq]
    cases h : wasWritten p.result with
    | false => simp [h]
    | true =>
      simp only [h, if_true, List.filter_cons_of_pos, List.length_cons, List.map_cons,
        List.sum_cons, UInt64.ofNat_add, Summary.classUpdated]
      congr 1
      · rw [UInt64.add_assoc, UInt64.add_comm 1]
        rfl
      · rw [UInt64.add_assoc]

theorem readSummary_foldl (d : Disk) (files : List ScannedFile) (s : Summary) :
    files.foldl (fun s f => s.fileScanned.addClasses (declarationsIn d f).length.toUInt64) s =
      { s with
        filesScanned := s.filesScanned + .ofNat files.length
        classesFound :=
          s.classesFound + .ofNat (files.map fun f => (declarationsIn d f).length).sum } := by
  induction files generalizing s with
  | nil => simp
  | cons f files ih =>
    rw [List.foldl_cons, ih]
    simp only [Summary.fileScanned, Summary.addClasses, List.length_cons, List.map_cons,
      List.sum_cons, UInt64.ofNat_add]
    congr 1
    · rw [UInt64.add_assoc, UInt64.add_comm 1]
      rfl
    · exact UInt64.add_assoc _ _ _

theorem length_missing_le (hplan : g.planFor D t = .ok p) :
    p.missing.length ≤ t.declaration.methods.length := by
  obtain ⟨tree, rfl, _⟩ := exists_against_of_planFor hplan
  calc (g.planAgainst t tree (D.isFile t.path)).missing.length
      ≤ (t.declaration.requiredTests g.settings.methodFormat).length := List.length_filter_le _ _
    _ ≤ (t.declaration.testable.map _).length := length_firstOccurrences_le _ _
    _ ≤ t.declaration.methods.length := by
      rw [List.length_map]
      exact List.length_filter_le _ _

theorem sublist_writing (g : Generator) (d : Disk) (files : List ScannedFile) :
    ((g.writing d files).map Prod.snd).Sublist (g.targets d files) := by
  have hturns : ((g.writing d files).map Prod.snd).Sublist
      (dropCollisions (g.targets d files)) := by
    rw [← map_snd_turns g d (dropCollisions _)]
    exact List.filter_sublist.map _
  exact hturns.trans List.filter_sublist

theorem length_writing_le (g : Generator) (d : Disk) (files : List ScannedFile) :
    (g.writing d files).length ≤ ((g.writing d files).map fun x => (g.lacking x).length).sum := by
  rw [← List.length_map fun x => (g.lacking x).length]
  apply List.length_le_sum_of_one_le
  rw [List.forall_mem_map]
  intro x hx
  obtain ⟨p, m, hadds⟩ := exists_adds_of_mem_writing hx
  rw [hadds.lacking_eq]
  exact List.length_pos_iff.mpr hadds.missing_ne_nil

theorem sum_lacking_le (g : Generator) (d : Disk) (files : List ScannedFile) :
    ((g.writing d files).map fun x => (g.lacking x).length).sum ≤
      ((g.targets d files).map fun t => t.declaration.methods.length).sum := by
  calc ((g.writing d files).map fun x => (g.lacking x).length).sum
      ≤ ((g.writing d files).map fun x => x.2.declaration.methods.length).sum := by
        apply List.sum_le_sum
        intro x hx
        obtain ⟨p, m, hadds⟩ := exists_adds_of_mem_writing hx
        rw [hadds.lacking_eq]
        exact length_missing_le hadds.plan_eq
    _ = (((g.writing d files).map Prod.snd).map fun t => t.declaration.methods.length).sum := by
        rw [List.map_map]
        rfl
    _ ≤ ((g.targets d files).map fun t => t.declaration.methods.length).sum :=
        ((sublist_writing g d files).map _).sum_le_sum fun _ _ => Nat.zero_le _

theorem length_targets (g : Generator) (d : Disk) (files : List ScannedFile) :
    (g.targets d files).length = (files.map fun f => (declarationsIn d f).length).sum := by
  simp [targets, List.length_flatMap]

/-- The files that the kept targets of a run write, each as often as it is written. -/
def filesWritten (g : Generator) (d : Disk) (files : List ScannedFile) : List Location :=
  g.writtenFiles d (dropCollisions (g.targets d files))

/-- What the counts of a run are, and what they count. -/
structure Accounted (g : Generator) (d : Disk) (files : List ScannedFile) (r : Run) :
    Prop where
  /-- Every file counts, whether or not it can be read. -/
  files_scanned : r.summary.filesScanned = .ofNat files.length
  /-- Every declaration counts, also if its target is dropped. -/
  classes_found :
    r.summary.classesFound = .ofNat (files.map fun f => (declarationsIn d f).length).sum
  kept : r.outcomes.map Prod.fst = dropCollisions (g.targets d files)
  updated : (r.outcomes.filter fun o => wasWritten o.2).map Prod.fst =
    (g.writing d files).map Prod.snd
  classes_updated : r.summary.classesUpdated = .ofNat (g.writing d files).length
  methods_added : r.summary.methodsAdded =
    .ofNat ((g.writing d files).map fun x => (g.lacking x).length).sum
  /-- A turn that counts finds tests missing, merges them and has the result written. -/
  adds : ∀ x ∈ g.writing d files, ∃ p m, g.Adds x p m
  /-- The merged tree has a stub for each missing test. -/
  stubs : (∃ d₀, Generator.load d₀ g.settings = .ok g) → ∀ x ∈ g.writing d files, ∀ p m,
    g.Adds x p m → (p.tree.addedMethods m).length = (g.lacking x).length
  /-- A turn that does not count writes no file. -/
  others : ∀ x ∈ g.turns d (dropCollisions (g.targets d files)),
    wasWritten (g.process x.1 x.2).result = false →
    ∀ l, x.1.SameFile (g.process x.1 x.2).disk l
  /-- The targets that count have paths of their own. -/
  paths : (g.writing d files).Pairwise fun x y => x.2.path.components ≠ y.2.path.components
  /-- Outside a dry run, every class that counts is written once. -/
  writes : g.settings.dryRun = false →
    r.summary.classesUpdated = .ofNat (g.filesWritten d files).length
  /-- No other file changes. -/
  untouched : ∀ l, l ∉ g.filesWritten d files → d.SameFile r.disk l
  /-- Only a link, or a step upwards in the extension, can lead two of the classes to one file. -/
  once : d.Plain → ".." ∉ (Path.mk g.settings.layout.extension).pieces.tail →
    (g.filesWritten d files).Nodup
  /-- If no file is written twice, the classes that count are as many as the files written. -/
  files_written : g.settings.dryRun = false → (g.filesWritten d files).Nodup →
    r.summary.classesUpdated = .ofNat (g.filesWritten d files).toFinset.card
  /-- A file that is written once holds what was printed for it in the end. -/
  contents : g.settings.dryRun = false → (g.filesWritten d files).Nodup →
    ∀ x ∈ g.writing d files, ∀ p m, g.Adds x p m → ∃ l, g.writtenBy x = some l ∧
      l ∈ g.filesWritten d files ∧ r.disk.get? l = some (.file (printed p m).toUTF8)
  /-- The counters are in this order as long as none of them can overflow. -/
  ordered : ((g.targets d files).map fun t => 1 + t.declaration.methods.length).sum < 2 ^ 64 →
    r.summary.classesUpdated ≤ r.summary.classesFound ∧
      r.summary.classesUpdated ≤ r.summary.methodsAdded

theorem summary_generate_eq (g : Generator) (d : Disk) (files : List ScannedFile) :
    (g.generate d files).summary =
      { filesScanned := .ofNat files.length
        classesFound := .ofNat (files.map fun f => (declarationsIn d f).length).sum
        classesUpdated := .ofNat (g.writing d files).length
        methodsAdded := .ofNat ((g.writing d files).map fun x => (g.lacking x).length).sum } := by
  have hadded : ((g.writing d files).map fun x => (g.process x.1 x.2).added) =
      (g.writing d files).map fun x => (g.lacking x).length := by
    apply List.map_congr_left
    intro x hx
    obtain ⟨p, m, hadds⟩ := exists_adds_of_mem_writing hx
    rw [hadds.lacking_eq, hadds.added]
  rw [summary_generate, ← List.foldl_map (f := fun x : Disk × TestTarget => g.process x.1 x.2),
    foldl_count, readSummary, readSummary_foldl, List.filter_map, List.length_map, List.map_map,
    ← hadded]
  simp only [UInt64.zero_add]
  rfl

theorem outcomes_generate_written (g : Generator) (d : Disk) (files : List ScannedFile) :
    ((g.generate d files).outcomes.filter fun o => wasWritten o.2).map Prod.fst =
      (g.writing d files).map Prod.snd := by
  rw [outcomes_generate, List.filter_map, List.map_map]
  rfl

theorem ordered_of_lt
    (h : ((g.targets d files).map fun t => 1 + t.declaration.methods.length).sum < 2 ^ 64) :
    (g.generate d files).summary.classesUpdated ≤ (g.generate d files).summary.classesFound ∧
      (g.generate d files).summary.classesUpdated ≤
        (g.generate d files).summary.methodsAdded := by
  have hsplit : ((g.targets d files).map fun t => 1 + t.declaration.methods.length).sum =
      (g.targets d files).length +
        ((g.targets d files).map fun t => t.declaration.methods.length).sum := by
    rw [List.sum_map_add]
    simp
  have hupdated := length_writing_le g d files
  have hadded := sum_lacking_le g d files
  have hfound := (sublist_writing g d files).length_le
  rw [List.length_map] at hfound
  have hsize : (2 : Nat) ^ 64 = UInt64.size := rfl
  rw [summary_generate_eq, ← length_targets g]
  constructor <;> rw [UInt64.ofNat_le_iff_le (by omega) (by omega)]
  · exact hfound
  · exact hupdated

theorem length_filesWritten (hwet : g.settings.dryRun = false) :
    (g.filesWritten d files).length = (g.writing d files).length := by
  rw [filesWritten, writtenFiles, List.length_filterMap_eq_countP, writing,
    List.countP_eq_length_filter]
  congr 2
  funext x
  exact isSome_writtenBy hwet x

theorem pairwise_placeOf (g : Generator) (d : Disk) (files : List ScannedFile)
    (hext : ".." ∉ (Path.mk g.settings.layout.extension).pieces.tail) :
    (dropCollisions (g.targets d files)).Pairwise
      fun t u => d.placeOf t.path ≠ d.placeOf u.path := by
  have htarget : ∀ t ∈ dropCollisions (g.targets d files), ∃ names : List String,
      t.path.components = g.settings.layout.testDirectory.components ++ names.map .name := by
    intro t ht
    obtain ⟨f, _, ht⟩ := List.mem_flatMap.mp (mem_of_mem_dropCollisions ht)
    obtain ⟨c, hc, rfl⟩ := List.mem_map.mp ht
    exact g.settings.layout.exists_components_resolve f (slash_notMem_name hc) hext
  apply (pairwise_dropCollisions _).imp_of_mem
  intro t u ht hu hne
  obtain ⟨ns, hns⟩ := htarget t ht
  obtain ⟨ms, hms⟩ := htarget u hu
  exact d.placeOf_ne hns hms hne

theorem parsed_of_load (h : Generator.load D s = .ok g) : g.template.tree.Parsed := by
  rw [Generator.load] at h
  split at h
  · rename_i hload
    cases h
    exact Template.parsed_of_load hload
  · cases h

theorem parsed_of_planFor (hload : Generator.load d s = .ok g)
    (hplan : g.planFor D t = .ok p) : p.tree.Parsed := by
  obtain ⟨tree, rfl, htree⟩ := exists_against_of_planFor hplan
  split at htree
  · exact Disk.parsed_of_parse htree
  · rw [htree]
    exact parsed_of_load hload

theorem draft_eq_of_splice (hp : p.tree.Parsed)
    (htarget : p.tree.targetClass t.className = some target)
    (htext : splice? p.tree.source p.tree.source.utf8ByteSize 0
      (((SyntaxTree.ClassUpdate.mk t.namesp t.className p.missing).rewriting p.tree target).edits
        p.tree) = some text) :
    draft t p = .ok ⟨if p.isExisting then .updated else .created, p.missing, text⟩ := by
  obtain ⟨text', hprint, hsplice⟩ := hp.tiled.print_update hp.phpShaped
    (SyntaxTree.mem_classes_of_targetClass htarget) ⟨t.namesp, t.className, p.missing⟩
  obtain rfl := Option.some.inj (hsplice.symm.trans htext)
  simp only [draft, SyntaxTree.merge, htarget, hprint, Option.getD_some]

theorem contents_generate (hwet : g.settings.dryRun = false)
    (hfiles : (g.filesWritten d files).Nodup) (hx : x ∈ g.writing d files)
    (hadds : g.Adds x p m) :
    ∃ l, g.writtenBy x = some l ∧ l ∈ g.filesWritten d files ∧
      (g.generate d files).disk.get? l = some (.file (printed p m).toUTF8) := by
  obtain ⟨l, hl, hget, _⟩ := hadds.writtenBy_eq_some hwet
  have hmem := List.mem_of_mem_filter hx
  have hafter : (g.process x.1 x.2).disk.SameFile (g.generate d files).disk l :=
    sameFile_after _ rfl hfiles hmem hl
  exact ⟨l, hl, List.mem_filterMap.mpr ⟨x, hmem, hl⟩, (hafter _).mpr hget⟩

/-- The counts of a run, whatever its files are and whatever ran before. -/
theorem generate_accounted (g : Generator) (d : Disk) (files : List ScannedFile) :
    g.Accounted d files (g.generate d files) where
  files_scanned := by rw [summary_generate_eq]
  classes_found := by rw [summary_generate_eq]
  kept := by
    rw [outcomes_generate, List.map_map]
    exact map_snd_turns g d _
  updated := outcomes_generate_written g d files
  classes_updated := by rw [summary_generate_eq]
  methods_added := by rw [summary_generate_eq]
  adds _ hx := exists_adds_of_mem_writing hx
  stubs := by
    rintro ⟨d₀, hload⟩ x _ p m hadds
    have hparsed := parsed_of_planFor hload hadds.plan_eq
    rw [hadds.lacking_eq]
    exact SyntaxTree.length_addedMethods hparsed.tiled.toPreordered hparsed.phpShaped hadds.merge_eq
  others x _ hnot := by
    rcases g.process_cases x.1 x.2 with ⟨p, m, hadds⟩ | ⟨_, hsame⟩
    · cases hadds.wasWritten_eq.symm.trans hnot
    · exact hsame
  paths := by
    have hkept := pairwise_dropCollisions (g.targets d files)
    rw [← map_snd_turns g d (dropCollisions _), List.pairwise_map] at hkept
    exact hkept.sublist List.filter_sublist
  writes hwet := by rw [summary_generate_eq, length_filesWritten hwet]
  untouched _ hl := sameFile_of_notMem_writtenFiles _ rfl hl
  once hd hext := nodup_writtenFiles hd (pairwise_placeOf g d files hext)
  files_written hwet hfiles := by
    rw [summary_generate_eq, ← length_filesWritten hwet, List.toFinset_card_of_nodup hfiles]
  contents hwet hfiles x hx p m hadds := contents_generate hwet hfiles hx hadds
  ordered := ordered_of_lt

/-- Two classes of one name, whose tests go to one directory under two names. -/
def linkedTests : Disk where
  workingDirectory := []
  entries :=
    [(["Skeleton.php"], .file "<?php class B \x7b\x7d".toUTF8),
      (["X"], .directory),
      (["X", "A.php"], .file "<?php class A \x7b function a() \x7b\x7d \x7d".toUTF8),
      (["Y"], .directory),
      (["Y", "A.php"], .file "<?php class A \x7b function b() \x7b\x7d \x7d".toUTF8),
      (["tests"], .directory),
      (["tests", "X"], .directory),
      (["tests", "Y"], .link "X")]

def linkedFiles : List ScannedFile :=
  [⟨⟨"X/A.php"⟩, ⟨""⟩⟩, ⟨⟨"Y/A.php"⟩, ⟨""⟩⟩]

def bareClass : Concrete :=
  .node "program" true none ⟨0, 16⟩
    [.node "php_tag" true none ⟨0, 5⟩ [],
      .node "class_declaration" true none ⟨6, 16⟩
        [.node "class" false none ⟨6, 11⟩ [],
          .node "name" true (some "name") ⟨12, 13⟩ [],
          .node "declaration_list" true (some "body") ⟨14, 16⟩
            [.node "\x7b" false none ⟨14, 15⟩ [], .node "\x7d" false none ⟨15, 16⟩ []]]]

def bareTree : SyntaxTree :=
  bareClass.lower "Skeleton.php" "<?php class B \x7b\x7d"

/-- Tests go to the directory `tests`, in files of an extension. -/
def fromBare (extension : String) : Generator where
  settings := { intoTests.settings with layout := ⟨⟨""⟩, "Tests", ⟨"tests"⟩, extension⟩ }
  template := ⟨⟨"Skeleton.php"⟩, bareTree⟩

theorem load_fromBare (extension : String) :
    Generator.load linkedTests (fromBare extension).settings = .ok (fromBare extension) := by
  have hparse : (linkedTests.parse ⟨"Skeleton.php"⟩).toOption = some bareTree := by decide +kernel
  have hclass : bareTree.hasClass = true := by decide +kernel
  cases h : linkedTests.parse ⟨"Skeleton.php"⟩ with
  | error fault =>
    rw [h] at hparse
    cases hparse
  | ok tree =>
    rw [h] at hparse
    cases hparse
    have htemplate : (fromBare extension).settings.template = ⟨"Skeleton.php"⟩ := rfl
    simp only [Generator.load, Template.load, htemplate, h, hclass, if_true]
    rfl

theorem generate_accounted_halfBroken :
    halfBroken.Plain ∧
      Generator.load linkedTests (fromBare "php").settings = .ok (fromBare "php") ∧
      (fromBare "php").filesWritten halfBroken halfBrokenFiles = [["tests", "ATest.php"]] ∧
      ((fromBare "php").generate halfBroken halfBrokenFiles).summary.classesUpdated = 1 ∧
      ∃ x ∈ (fromBare "php").writing halfBroken halfBrokenFiles, ∃ p m,
        (fromBare "php").Adds x p m ∧ (p.tree.addedMethods m).length = 1 ∧
        ((fromBare "php").generate halfBroken halfBrokenFiles).disk.get? ["tests", "ATest.php"] =
          some (.file (printed p m).toUTF8) := by
  have hcounts := generate_accounted (fromBare "php") halfBroken halfBrokenFiles
  have hfiles : (fromBare "php").filesWritten halfBroken halfBrokenFiles =
      [["tests", "ATest.php"]] := by
    decide +kernel
  have hlacking : ((fromBare "php").writing halfBroken halfBrokenFiles).map
      (fun x => ((fromBare "php").lacking x).length) = [1] := by
    decide +kernel
  have honce := hcounts.once plain_halfBroken (by decide)
  refine ⟨plain_halfBroken, load_fromBare "php", hfiles, ?_, ?_⟩
  · rw [hcounts.files_written rfl honce, hfiles]
    rfl
  · obtain ⟨x, hwriting, hx⟩ := List.map_eq_singleton_iff.mp hlacking
    have hmem : x ∈ (fromBare "php").writing halfBroken halfBrokenFiles := by
      rw [hwriting]
      exact List.mem_singleton_self x
    obtain ⟨p, m, hadds⟩ := hcounts.adds x hmem
    obtain ⟨l, _, hl, hget⟩ := hcounts.contents rfl honce x hmem p m hadds
    rw [hfiles, List.mem_singleton] at hl
    subst hl
    exact ⟨x, hmem, p, m, hadds,
      (hcounts.stubs ⟨_, load_fromBare "php"⟩ x hmem p m hadds).trans hx, hget⟩

def linkedTarget (directory method : String) : TestTarget :=
  (fromBare "php").settings.layout.resolve ⟨⟨directory ++ "/A.php"⟩, ⟨""⟩⟩
    ⟨"A", none, .isClass, [⟨method, .isPublic, false, false⟩], some ⟨6, 33⟩⟩

theorem targets_linked :
    dropCollisions ((fromBare "php").targets linkedTests linkedFiles) =
      [linkedTarget "X" "a", linkedTarget "Y" "b"] := by
  decide +kernel

def linkedText : String :=
  "<?php class ATest \x7b\n    public function test_a()\n    \x7b\n    \x7d\n\x7d"

theorem drafts_linkedTarget : (fromBare "php").Drafts linkedTests (linkedTarget "X" "a")
    ⟨.created, ["test_a"], linkedText⟩ := by
  refine ⟨_, planFor_of_no_file (by decide +kernel), by decide +kernel, ?_⟩
  have hmissing : ((fromBare "php").planAgainst (linkedTarget "X" "a") bareTree false).missing =
      ["test_a"] := by
    decide +kernel
  have hparsed : bareTree.Parsed := parsed_of_load (load_fromBare "php")
  have htarget : bareTree.targetClass (linkedTarget "X" "a").className = some 2 := by
    decide +kernel
  have hdraft : draft (linkedTarget "X" "a")
        ((fromBare "php").planAgainst (linkedTarget "X" "a") bareTree false) =
      .ok ⟨.created, _, linkedText⟩ :=
    draft_eq_of_splice hparsed htarget (by decide +kernel)
  rw [hmissing] at hdraft
  exact hdraft

/-- The second class finds the file that the first has made, and its tests go there, too. -/
theorem filesWritten_linked :
    (fromBare "php").filesWritten linkedTests linkedFiles =
      [["tests", "X", "ATest.php"], ["tests", "X", "ATest.php"]] := by
  rw [filesWritten, targets_linked, writtenFiles_cons, process_disk_of_drafts drafts_linkedTarget]
  decide +kernel

/-- Behind each of two new directories an extension leads upwards to the same name. -/
theorem filesWritten_upwards :
    (fromBare "x/../y").filesWritten halfBroken halfBrokenFiles =
      [["tests", "y"], ["tests", "y"]] := by
  decide +kernel

theorem generate_accounted_linked :
    Generator.load linkedTests (fromBare "php").settings = .ok (fromBare "php") ∧
      ((fromBare "php").generate linkedTests linkedFiles).summary.classesUpdated = 2 ∧
      ((fromBare "php").filesWritten linkedTests linkedFiles).toFinset.card = 1 ∧
      halfBroken.Plain ∧
      ((fromBare "x/../y").generate halfBroken halfBrokenFiles).summary.classesUpdated = 2 ∧
      ((fromBare "x/../y").filesWritten halfBroken halfBrokenFiles).toFinset.card = 1 := by
  have hcount : ∀ (g : Generator) (d : Disk) (files : List ScannedFile),
      g.settings.dryRun = false → (g.generate d files).summary.classesUpdated =
        .ofNat (g.filesWritten d files).length := by
    intro g d files hwet
    rw [summary_generate_eq, length_filesWritten hwet]
  refine ⟨load_fromBare "php", ?_, ?_, plain_halfBroken, ?_, ?_⟩
  · rw [hcount _ _ _ rfl, filesWritten_linked]
    rfl
  · rw [filesWritten_linked]
    rfl
  · rw [hcount _ _ _ rfl, filesWritten_upwards]
    rfl
  · rw [filesWritten_upwards]
    rfl

end Generator

end Scaffold
