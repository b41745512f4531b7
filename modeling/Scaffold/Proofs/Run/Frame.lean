import Scaffold.Proofs.Extraction.Selection
import Scaffold.Proofs.Merge.Update
import Scaffold.Proofs.Php.Parsed
import Scaffold.Proofs.Run.Turns

namespace Scaffold
set_option autoImplicit true

open Disk

namespace Generator

variable {g : Generator} {d D : Disk} {G : Ground d} {t : TestTarget} {ts : List TestTarget}

/-- The plan of a target against a tree, which is its test file's or the skeleton's. -/
def planAgainst (g : Generator) (t : TestTarget) (tree : SyntaxTree) (fromFile : Bool) :
    TestPlan :=
  .against tree t.declaration t.className g.settings.methodFormat fromFile

/-- A test file that can be read and parsed, declares a class and lacks a required test. -/
structure Outdated (g : Generator) (t : TestTarget) (content : ByteArray) (tree : SyntaxTree) :
    Prop where
  parses : ∃ text, String.fromUTF8? content = some text ∧
    SyntaxTree.parse t.path.text text = .ok tree
  hasClass : tree.hasClass = true
  lacking : (g.planAgainst t tree true).missing ≠ []

theorem merge_eq_ok_iff {tree : SyntaxTree} :
    (∃ merged, tree.merge namesp className methods = .ok merged) ↔ tree.hasClass = true := by
  have hnone := tree.targetClass_eq_none_iff className
  rw [SyntaxTree.merge, SyntaxTree.hasClass]
  cases htarget : tree.targetClass className with
  | none => simp [hnone.mp htarget]
  | some target => simp [← hnone, htarget]

theorem draft_eq_ok_iff :
    (∃ f, draft t p = .ok f ∧ f.text = text) ↔
      ∃ merged, p.tree.merge t.namesp t.className p.missing = .ok merged ∧
        (merged.print? p.tree).getD "" = text := by
  rw [draft]
  split
  · rename_i merged hmerged
    simp [hmerged]
  · rename_i e hmerged
    simp [hmerged]

theorem exists_against_of_planFor (h : g.planFor d t = .ok p) :
    ∃ tree, p = g.planAgainst t tree (d.isFile t.path) ∧
      if d.isFile t.path then d.parse t.path = .ok tree else tree = g.template.tree := by
  rw [planFor] at h
  split at h
  · rename_i hplan
    cases h
    exact exists_against_of_plan hplan
  · cases h

theorem planFor_of_file (hfind : d.find t.path true = .ok (.present l (.file content))) :
    g.planFor d t = .ok p ↔ ∃ text tree, String.fromUTF8? content = some text ∧
      SyntaxTree.parse t.path.text text = .ok tree ∧ p = g.planAgainst t tree true := by
  rw [planFor, plan_eq_against, if_pos (isFile_iff.mpr ⟨l, content, hfind⟩), Disk.parse]
  simp only [readText, hfind]
  cases hread : String.fromUTF8? content with
  | none => simp [Except.map]
  | some text =>
    cases hparse : SyntaxTree.parse t.path.text text with
    | error fault => simp [Except.map, hparse]
    | ok tree => simp [Except.map, hparse, planAgainst, eq_comm]

theorem planFor_of_no_file (hfile : d.isFile t.path = false) :
    g.planFor d t = .ok (g.planAgainst t g.template.tree false) := by
  rw [planFor, plan_eq_against, if_neg (by simp [hfile])]
  rfl

theorem drafts_iff_of_file (hfind : d.find t.path true = .ok (.present l (.file content))) :
    (∃ f, g.Drafts d t f ∧ f.text = text) ↔ ∃ tree merged, g.Outdated t content tree ∧
      tree.merge t.namesp t.className (g.planAgainst t tree true).missing = .ok merged ∧
      (merged.print? tree).getD "" = text := by
  constructor
  · rintro ⟨f, ⟨p, hplan, hopen, hdraft⟩, htext⟩
    obtain ⟨source, tree, hread, hparse, rfl⟩ := (planFor_of_file hfind).mp hplan
    obtain ⟨merged, hmerge, hprint⟩ := draft_eq_ok_iff.mp ⟨f, hdraft, htext⟩
    have hclass : tree.hasClass = true := merge_eq_ok_iff.mp ⟨merged, hmerge⟩
    exact ⟨tree, merged, ⟨⟨source, hread, hparse⟩, hclass, TestPlan.isSatisfied_eq_false.mp hopen⟩,
      hmerge, hprint⟩
  · rintro ⟨tree, merged, ⟨⟨source, hread, hparse⟩, _, hlacking⟩, hmerge, hprint⟩
    obtain ⟨f, hdraft, htext⟩ :=
      (draft_eq_ok_iff (p := g.planAgainst t tree true)).mpr ⟨merged, hmerge, hprint⟩
    exact ⟨f, ⟨_, (planFor_of_file hfind).mpr ⟨source, tree, hread, hparse, rfl⟩,
      TestPlan.isSatisfied_eq_false.mpr hlacking, hdraft⟩, htext⟩

section Turn

variable (h : G.Bears t.path) (hk : d.Keeps D)
include h hk

theorem get?_process_of_drafts (hfind : D.find t.path true = .ok (.present l (.file content)))
    (hdraft : g.Drafts D t f) (hdry : g.settings.dryRun = false) :
    (g.process D t).disk.get? l = some (.file f.text.toUTF8) := by
  have hl : l ≠ [] := by
    rintro rfl
    cases get?_of_find_present hfind
  rw [process_disk_of_drafts hdraft, hdry, if_neg (by decide),
    Ground.save_of_file h hk hfind, get?_put hl, if_pos rfl]

/-- A file that the target's path does not lead to, for a dot at its end or for its length, is not
written either. -/
theorem get?_process_of_unreachable (hget : D.get? (G.place t.path) = some (.file content))
    (hfind : ∀ l c, D.find t.path true ≠ .ok (.present l (.file c))) :
    (g.process D t).disk.get? (G.place t.path) = some (.file content) := by
  rcases g.process_disk_cases D t with hdisk | ⟨_, f, _, hdisk⟩
  · rwa [hdisk]
  · rw [hdisk]
    obtain ⟨D', hwidens, ⟨e, hsave⟩ | ⟨s, hs, hplace, _, hsave⟩⟩ :=
      save_cases hk.plain t.path f.text
    · rw [hsave]
      exact (hwidens.sameFile _ content).mpr hget
    · have hk' := hk.trans hwidens.keeps
      have hget' := (hwidens.sameFile _ content).mpr hget
      obtain ⟨hat, _⟩ := Ground.find_ok h hk' hs
      cases s with
      | present l e =>
        obtain rfl : l = G.place t.path := hat
        obtain rfl : .file content = e :=
          Option.some.inj (hget'.symm.trans (get?_of_find_present hs))
        exact absurd (Ground.find_file h hk' hk (fun _ => hget) hs) (hfind _ _)
      | absent l =>
        obtain rfl : l = G.place t.path := hat
        cases hget'.symm.trans (get?_of_find_absent hk'.plain hs).1

theorem exists_draft_of_created (hnone : ∀ c, D.get? (G.place t.path) ≠ some (.file c))
    (hget : (g.process D t).disk.get? (G.place t.path) = some (.file content)) :
    g.settings.dryRun = false ∧ (∃ f, g.Drafts D t f ∧ content = f.text.toUTF8) ∧
      (g.process D t).disk.find t.path true =
        .ok (.present (G.place t.path) (.file content)) := by
  rcases g.process_disk_cases D t with hdisk | ⟨hdry, f, hdraft, hdisk⟩
  · rw [hdisk] at hget
    exact absurd hget (hnone content)
  · rw [hdisk] at hget ⊢
    obtain ⟨D', hwidens, ⟨e, hsave⟩ | ⟨s, hs, hplace, hparent, hsave⟩⟩ :=
      save_cases hk.plain t.path f.text
    · rw [hsave] at hget
      exact absurd ((hwidens.sameFile _ content).mp hget) (hnone content)
    · have hk' := hk.trans hwidens.keeps
      have hput := hwidens.plain.keeps_put hparent hplace f.text.toUTF8
      obtain ⟨hat, _⟩ := Ground.find_ok h hk' hs
      rw [hsave] at hget ⊢
      cases s with
      | present l e =>
        obtain rfl : l = G.place t.path := hat
        have he := get?_of_find_present hs
        rcases hk'.plain.cases_get? (G.place t.path) with hg | hg | ⟨c, hg⟩
        · cases hg.symm.trans he
        · exact absurd hg hplace
        · exact absurd ((hwidens.sameFile _ c).mp hg) (hnone c)
      | absent l =>
        obtain rfl : l = G.place t.path := hat
        have hne : G.place t.path ≠ [] := by
          intro hnil
          rw [hnil] at hs
          cases (get?_of_find_absent hk'.plain hs).1
        have hcontent : content = f.text.toUTF8 := by
          simp only [Spot.place] at hget
          rw [get?_put hne, if_pos rfl] at hget
          cases hget
          rfl
        exact ⟨hdry, ⟨f, hdraft, hcontent⟩, find_of_absent hwidens.plain hput hs hget⟩

end Turn

/-- What a run that found some targets does to the files. -/
structure Framed (g : Generator) (d : Disk) (found : List TestTarget) (final : Disk) : Prop where
  /-- A file keeps its content unless it is the outdated test file of a kept target. -/
  unchanged : ∀ l content, d.get? l = some (.file content) →
    (∀ t ∈ dropCollisions found, g.settings.dryRun = false →
      d.find t.path true = .ok (.present l (.file content)) →
      ∀ tree, ¬ g.Outdated t content tree) →
    final.get? l = some (.file content)
  /-- An outdated test file takes its missing tests. -/
  updated : ∀ t ∈ dropCollisions found, ∀ l content tree, g.settings.dryRun = false →
    d.find t.path true = .ok (.present l (.file content)) → g.Outdated t content tree →
    ∃ merged, tree.merge t.namesp t.className (g.planAgainst t tree true).missing = .ok merged ∧
      final.get? l = some (.file ((merged.print? tree).getD "").toUTF8)
  /-- A new file is that of a kept target, made from the skeleton. -/
  created : ∀ l content, final.get? l = some (.file content) →
    (∀ c, d.get? l ≠ some (.file c)) →
    g.settings.dryRun = false ∧ ∃ t ∈ dropCollisions found,
      final.find t.path true = .ok (.present l (.file content)) ∧
      (g.planAgainst t g.template.tree false).missing ≠ [] ∧
      ∃ merged, g.template.tree.merge t.namesp t.className
          (g.planAgainst t g.template.tree false).missing = .ok merged ∧
        content = ((merged.print? g.template.tree).getD "").toUTF8
  /-- A file that is not UTF-8, does not parse or declares no class keeps its content. -/
  unfit : ∀ l content, d.get? l = some (.file content) →
    (∀ origin text tree, String.fromUTF8? content = some text →
      SyntaxTree.parse origin text = .ok tree → tree.hasClass = false) →
    final.get? l = some (.file content)
  /-- Nothing is written at a path that several targets have. -/
  colliding : ∀ t ∈ collisions found, ∀ l content,
    final.find t.path true = .ok (.present l (.file content)) ↔
      d.find t.path true = .ok (.present l (.file content))
  /-- A dry run changes nothing. -/
  dry : g.settings.dryRun = true → final = d

section Kept

variable {found : List TestTarget} (hfound : ∀ t ∈ found, G.Bears t.path)
include hfound

theorem exists_turn_kept (g : Generator) (r : Run) (hr : r.disk = d)
    (ht : t ∈ dropCollisions found) :
    ∃ D, Turn G g d ((dropCollisions found).foldl g.advance r).disk D t := by
  subst hr
  obtain ⟨D, hx⟩ := g.exists_mem_turns r.disk ht
  exact ⟨D, turn_of_mem_turns r G.plain.keeps (fun t ht => hfound t (mem_of_mem_dropCollisions ht))
    (Ground.pairwise_places found hfound) hx⟩

theorem sameFile_of_no_place (g : Generator) (r : Run) (hr : r.disk = d)
    (hl : ∀ t ∈ dropCollisions found, G.place t.path ≠ l) :
    d.SameFile ((dropCollisions found).foldl g.advance r).disk l := by
  subst hr
  exact sameFile_foldl g _ r G.plain.keeps
    fun t ht => ⟨hfound t (mem_of_mem_dropCollisions ht), hl t ht⟩

theorem foldl_unchanged (g : Generator) (r : Run) (hr : r.disk = d)
    (hget : d.get? l = some (.file content))
    (hcurrent : ∀ t ∈ dropCollisions found, g.settings.dryRun = false →
      d.find t.path true = .ok (.present l (.file content)) →
      ∀ tree, ¬ g.Outdated t content tree) :
    ((dropCollisions found).foldl g.advance r).disk.get? l = some (.file content) := by
  by_cases hplace : ∃ t ∈ dropCollisions found, G.place t.path = l
  · obtain ⟨t, ht, rfl⟩ := hplace
    have hbears := hfound t (mem_of_mem_dropCollisions ht)
    obtain ⟨D, hk, hsame, _, hafter⟩ := exists_turn_kept hfound g r hr ht
    have hD := (hsame content).mpr hget
    apply (hafter content).mpr
    by_cases hread : ∃ l c, D.find t.path true = .ok (.present l (.file c))
    · obtain ⟨l, c, hfind⟩ := hread
      obtain ⟨hat, _⟩ := Ground.find_ok hbears hk hfind
      obtain rfl : l = G.place t.path := hat
      obtain rfl : content = c := by
        cases hD.symm.trans (get?_of_find_present hfind)
        rfl
      rcases g.process_disk_cases D t with hdisk | ⟨hdry, f, hdraft, _⟩
      · rwa [hdisk]
      · have hfind' := (Ground.find_file_iff hbears hk G.plain.keeps hsame.symm).mpr hfind
        obtain ⟨tree, _, houtdated, _⟩ := (drafts_iff_of_file hfind).mp ⟨f, hdraft, rfl⟩
        exact absurd houtdated (hcurrent t ht hdry hfind' tree)
    · exact get?_process_of_unreachable hbears hk hD fun l c hfind => hread ⟨l, c, hfind⟩
  · have hsame := sameFile_of_no_place hfound g r hr
      fun t ht hl => hplace ⟨t, ht, hl⟩
    exact (hsame content).mpr hget

theorem foldl_updated (g : Generator) (r : Run) (hr : r.disk = d)
    (ht : t ∈ dropCollisions found) (hdry : g.settings.dryRun = false)
    (hfind : d.find t.path true = .ok (.present l (.file content)))
    (houtdated : g.Outdated t content tree) :
    ∃ merged, tree.merge t.namesp t.className (g.planAgainst t tree true).missing = .ok merged ∧
      ((dropCollisions found).foldl g.advance r).disk.get? l =
        some (.file ((merged.print? tree).getD "").toUTF8) := by
  have hbears := hfound t (mem_of_mem_dropCollisions ht)
  obtain ⟨D, hk, hsame, _, hafter⟩ := exists_turn_kept hfound g r hr ht
  have hfind' := (Ground.find_file_iff hbears G.plain.keeps hk hsame).mpr hfind
  obtain ⟨merged, hmerge⟩ := merge_eq_ok_iff.mpr houtdated.hasClass
  obtain ⟨f, hdraft, htext⟩ :=
    (drafts_iff_of_file hfind').mpr ⟨tree, merged, houtdated, hmerge, rfl⟩
  obtain ⟨hat, _⟩ := Ground.find_ok hbears hk hfind'
  obtain rfl : l = G.place t.path := hat
  refine ⟨merged, hmerge, (hafter _).mpr ?_⟩
  rw [get?_process_of_drafts hbears hk hfind' hdraft hdry, htext]

theorem foldl_created (g : Generator) (r : Run) (hr : r.disk = d)
    (hget : ((dropCollisions found).foldl g.advance r).disk.get? l = some (.file content))
    (hnone : ∀ c, d.get? l ≠ some (.file c)) :
    g.settings.dryRun = false ∧ ∃ t ∈ dropCollisions found,
      ((dropCollisions found).foldl g.advance r).disk.find t.path true =
        .ok (.present l (.file content)) ∧
      (g.planAgainst t g.template.tree false).missing ≠ [] ∧
      ∃ merged, g.template.tree.merge t.namesp t.className
          (g.planAgainst t g.template.tree false).missing = .ok merged ∧
        content = ((merged.print? g.template.tree).getD "").toUTF8 := by
  by_cases hplace : ∃ t ∈ dropCollisions found, G.place t.path = l
  · obtain ⟨t, ht, rfl⟩ := hplace
    have hbears := hfound t (mem_of_mem_dropCollisions ht)
    obtain ⟨D, hk, hsame, hkeeps, hafter⟩ := exists_turn_kept hfound g r hr ht
    have hk' := hk.trans (g.keeps_process hk.plain t)
    obtain ⟨hdry, ⟨f, ⟨p, hplan, hopen, hdraft⟩, rfl⟩, hfind⟩ :=
      exists_draft_of_created hbears hk (fun c hc => hnone c ((hsame c).mp hc))
        ((hafter content).mp hget)
    have hfile : D.isFile t.path = false := by
      rw [Bool.eq_false_iff, ne_eq, isFile_iff]
      rintro ⟨l, c, hc⟩
      obtain ⟨hat, _⟩ := Ground.find_ok hbears hk hc
      obtain rfl : l = G.place t.path := hat
      exact hnone c ((hsame c).mp (get?_of_find_present hc))
    rw [planFor_of_no_file hfile] at hplan
    cases hplan
    obtain ⟨merged, hmerge, hprint⟩ := draft_eq_ok_iff.mp ⟨f, hdraft, rfl⟩
    refine ⟨hdry, t, ht, ?_, TestPlan.isSatisfied_eq_false.mp hopen, merged, hmerge, ?_⟩
    · exact (Ground.find_file_iff hbears hk' (hk'.trans hkeeps) hafter).mpr hfind
    · exact congrArg String.toUTF8 hprint.symm
  · have hsame := sameFile_of_no_place hfound g r hr
      fun t ht hl => hplace ⟨t, ht, hl⟩
    exact absurd ((hsame content).mp hget) (hnone content)

theorem foldl_colliding (g : Generator) (r : Run) (hr : r.disk = d)
    (ht : t ∈ collisions found) :
    ((dropCollisions found).foldl g.advance r).disk.find t.path true =
        .ok (.present l (.file content)) ↔
      d.find t.path true = .ok (.present l (.file content)) := by
  have hbears := hfound t (List.mem_of_mem_filter ht)
  have hsame := sameFile_of_no_place hfound g r hr (l := G.place t.path)
    fun u hu hplace => components_ne_of_mem_collisions ht hu
      (hbears.components_eq (hfound u (mem_of_mem_dropCollisions hu)) hplace.symm)
  subst hr
  exact Ground.find_file_iff hbears G.plain.keeps (g.keeps_foldl _ r G.plain) hsame

theorem framed_foldl (g : Generator) (r : Run) (hr : r.disk = d) :
    g.Framed d found ((dropCollisions found).foldl g.advance r).disk where
  unchanged _ _ := foldl_unchanged hfound g r hr
  updated _ ht _ _ _ := foldl_updated hfound g r hr ht
  created _ _ := foldl_created hfound g r hr
  unfit l content hget hunfit := by
    apply foldl_unchanged hfound g r hr hget
    rintro t _ _ _ tree ⟨⟨text, hread, hparse⟩, hclass, _⟩
    cases (hunfit t.path.text text tree hread hparse).symm.trans hclass
  colliding _ ht _ _ := foldl_colliding hfound g r hr ht
  dry hdry := (foldl_disk_of_dry hdry _ r).trans hr

end Kept

theorem slash_notMem_name (hc : c ∈ declarationsIn d f) : '/' ∉ c.name.toList := by
  rw [declarationsIn] at hc
  split at hc
  · rename_i hparse
    intro hslash
    have hname := (Disk.parsed_of_parse hparse).isNameChar_of_mem_declarations hc hslash
    exact absurd hname (by decide)
  · cases hc

/-- The targets of a run are grounded unless a step upwards in the directory of tests follows a
directory that is not there. -/
theorem grounded_targets (g : Generator) (d : Disk) (files : List ScannedFile)
    (front : List Component) (names : List String)
    (hdir : g.settings.layout.testDirectory.components = front ++ names.map .name)
    (hfront : front = [] ∨ d.isDirectory (.ofComponents front) = true)
    (hext : '/' ∉ g.settings.layout.extension.toList) : Grounded d (g.targets d files) := by
  refine ⟨front, hfront, ?_⟩
  intro t ht
  obtain ⟨f, _, ht⟩ := List.mem_flatMap.mp ht
  obtain ⟨c, hc, rfl⟩ := List.mem_map.mp ht
  have hpath := g.settings.layout.components_resolve f (slash_notMem_name hc) hext
  rw [hdir, List.append_assoc, ← List.map_append] at hpath
  exact ⟨_, by simp, hpath⟩

/-- A run on a plain file system changes only what its kept targets lack. Their paths must be
grounded: a step upwards behind a directory that is yet to be made hides a file from the plan that
the writing then finds. -/
theorem generate_framed (g : Generator) (d : Disk) (files : List ScannedFile) (hd : d.Plain)
    (hg : Grounded d (g.targets d files)) :
    g.Framed d (g.targets d files) (g.generate d files).disk := by
  obtain ⟨G, hfound⟩ := hd.exists_ground hg
  exact framed_foldl hfound g _ rfl

/-- Two classes whose test files are there. One lacks a test, the other does not parse. -/
def halfBroken : Disk where
  workingDirectory := []
  entries :=
    [(["A.php"], .file "<?php class A \x7b function a() \x7b\x7d \x7d".toUTF8),
      (["B.php"], .file "<?php class B \x7b function b() \x7b\x7d \x7d".toUTF8),
      (["tests"], .directory),
      (["tests", "ATest.php"], .file "<?php class ATest \x7b\x7d".toUTF8),
      (["tests", "BTest.php"], .file "<?php class \x7b".toUTF8)]

def halfBrokenFiles : List ScannedFile :=
  [⟨⟨"A.php"⟩, ⟨""⟩⟩, ⟨⟨"B.php"⟩, ⟨""⟩⟩]

def intoTests : Generator where
  settings :=
    { roots := []
      exclude := []
      layout := ⟨⟨""⟩, "Tests", ⟨"tests"⟩, "php"⟩
      template := ⟨"Skeleton.php"⟩
      methodFormat := .snake
      dryRun := false
      parallel := false }
  template := ⟨⟨"Skeleton.php"⟩,
    SyntaxTree.emptyClass.lower "Skeleton.php" SyntaxTree.emptyClassSource⟩

theorem plain_halfBroken : halfBroken.Plain :=
  .of_entries (by decide) (by simp [halfBroken]) rfl

theorem grounded_halfBroken : Grounded halfBroken (intoTests.targets halfBroken halfBrokenFiles) :=
  intoTests.grounded_targets halfBroken halfBrokenFiles [] ["tests"] (by decide +kernel) (.inl rfl)
    (by decide)

theorem generate_framed_halfBroken :
    halfBroken.Plain ∧ Grounded halfBroken (intoTests.targets halfBroken halfBrokenFiles) ∧
      (intoTests.targets halfBroken halfBrokenFiles).map (·.path) =
        [⟨"tests/ATest.php"⟩, ⟨"tests/BTest.php"⟩] ∧
      (intoTests.generate halfBroken halfBrokenFiles).disk.get? ["tests", "BTest.php"] =
        some (.file "<?php class \x7b".toUTF8) := by
  have hframed := generate_framed intoTests halfBroken halfBrokenFiles plain_halfBroken
    grounded_halfBroken
  refine ⟨plain_halfBroken, grounded_halfBroken, by decide +kernel, ?_⟩
  apply hframed.unfit _ _ rfl
  intro origin text tree hread hparse
  have htext : String.fromUTF8? "<?php class \x7b".toUTF8 = some "<?php class \x7b" := by
    decide +kernel
  obtain rfl := Option.some.inj (hread.symm.trans htext)
  have hfault : (Php.parse "<?php class \x7b").toOption = none := by decide +kernel
  rw [SyntaxTree.parse] at hparse
  split at hparse
  · rename_i c hc
    rw [hc] at hfault
    cases hfault
  · cases hparse

end Generator

end Scaffold
