import Scaffold.Generator
import Scaffold.Proofs.Disk.Saving
import Scaffold.Proofs.Plan.Names
import Scaffold.Proofs.Target.Places

namespace Scaffold
set_option autoImplicit true

namespace Disk

theorem isFile_iff {d : Disk} :
    d.isFile p = true ↔ ∃ l content, d.find p true = .ok (.present l (.file content)) := by
  constructor
  · intro h
    unfold isFile lookUp? at h
    split at h
    · rename_i content hfile
      split at hfile
      · rename_i l e hfind
        cases hfile
        exact ⟨l, content, hfind⟩
      · cases hfile
    · cases h
  · rintro ⟨l, content, hfind⟩
    simp only [isFile, lookUp?, hfind]

section Ground

variable {d d₁ d₂ : Disk} {G : Ground d} {p : Path} (h : G.Bears p) (hk₁ : d.Keeps d₁)
  (hk₂ : d.Keeps d₂) (hsame : d₁.SameFile d₂ (G.place p))
include h hk₁ hk₂ hsame

theorem Ground.find_file_iff :
    d₂.find p follow = .ok (.present l (.file content)) ↔
      d₁.find p follow = .ok (.present l (.file content)) :=
  ⟨find_file h hk₂ hk₁ (hsame content).mp, find_file h hk₁ hk₂ (hsame content).mpr⟩

theorem Ground.isFile_eq : d₂.isFile p = d₁.isFile p := by
  rw [Bool.eq_iff_iff, isFile_iff, isFile_iff]
  simp only [find_file_iff h hk₁ hk₂ hsame]

theorem Ground.parse_eq (hfile : d₁.isFile p = true) : d₂.parse p = d₁.parse p := by
  obtain ⟨l, content, hfind⟩ := isFile_iff.mp hfile
  have hfind' := (find_file_iff h hk₁ hk₂ hsame).mpr hfind
  simp only [parse, readText, hfind, hfind']

end Ground

end Disk

theorem TestPlan.isSatisfied_eq_false {p : TestPlan} : p.isSatisfied = false ↔ p.missing ≠ [] := by
  rw [isSatisfied, List.isEmpty_eq_false_iff]

open Disk

namespace Generator

variable {g : Generator} {d D : Disk} {G : Ground d} {t : TestTarget} {ts : List TestTarget}

/-- A plan depends on the file system by the file at the target's place only. -/
theorem planFor_congr (h : G.Bears t.path) (hk₁ : d.Keeps d₁) (hk₂ : d.Keeps d₂)
    (hsame : d₁.SameFile d₂ (G.place t.path)) : g.planFor d₂ t = g.planFor d₁ t := by
  have hplan : plan d₂ t g.template g.settings.methodFormat =
      plan d₁ t g.template g.settings.methodFormat := by
    rw [plan_eq_against, plan_eq_against, Ground.isFile_eq h hk₁ hk₂ hsame]
    split
    · rename_i hfile
      rw [Ground.parse_eq h hk₁ hk₂ hsame hfile]
    · rfl
  rw [planFor, planFor, hplan]

/-- A target asks for a draft: tests are missing and can be merged. -/
def Drafts (g : Generator) (d : Disk) (t : TestTarget) (f : Draft) : Prop :=
  ∃ p, g.planFor d t = .ok p ∧ p.isSatisfied = false ∧ draft t p = .ok f

theorem commit_disk (g : Generator) (d : Disk) (t : TestTarget) (f : Draft) :
    (g.commit d t f).1 = if g.settings.dryRun then d else (d.save t.path f.text).1 := by
  rw [commit]
  split
  · rfl
  · split <;> rename_i hsave <;> rw [hsave]

theorem process_disk_of_drafts (h : g.Drafts d t f) :
    (g.process d t).disk = if g.settings.dryRun then d else (d.save t.path f.text).1 := by
  obtain ⟨p, hplan, hopen, hdraft⟩ := h
  rw [← commit_disk]
  simp only [process, hplan, hopen, hdraft, Bool.false_eq_true, if_false]
  split <;> rename_i hcommit <;> rw [hcommit]

theorem process_disk_of_not_drafts (h : ∀ f, ¬ g.Drafts d t f) : (g.process d t).disk = d := by
  unfold process
  split
  · rfl
  · rename_i p hplan
    split
    · rfl
    · rename_i hopen
      split
      · rfl
      · rename_i f hdraft
        exact absurd ⟨p, hplan, by simpa using hopen, hdraft⟩ (h f)

theorem process_disk_cases (g : Generator) (d : Disk) (t : TestTarget) :
    (g.process d t).disk = d ∨ g.settings.dryRun = false ∧
      ∃ f, g.Drafts d t f ∧ (g.process d t).disk = (d.save t.path f.text).1 := by
  by_cases h : ∃ f, g.Drafts d t f
  · obtain ⟨f, hf⟩ := h
    have hdisk := process_disk_of_drafts hf
    cases hdry : g.settings.dryRun with
    | true =>
      rw [hdry] at hdisk
      exact .inl hdisk
    | false =>
      rw [hdry] at hdisk
      exact .inr ⟨rfl, f, hf, hdisk⟩
  · exact .inl (process_disk_of_not_drafts fun f hf => h ⟨f, hf⟩)

theorem process_disk_of_dry (hdry : g.settings.dryRun = true) (d : Disk) (t : TestTarget) :
    (g.process d t).disk = d := by
  rcases g.process_disk_cases d t with hdisk | ⟨hwet, _⟩
  · exact hdisk
  · cases hdry.symm.trans hwet

theorem foldl_disk_of_dry (hdry : g.settings.dryRun = true) (ts : List TestTarget) (r : Run) :
    (ts.foldl g.advance r).disk = r.disk := by
  induction ts generalizing r with
  | nil => rfl
  | cons t ts ih => exact (ih (g.advance r t)).trans (process_disk_of_dry hdry r.disk t)

theorem keeps_process (g : Generator) (hD : D.Plain) (t : TestTarget) :
    D.Keeps (g.process D t).disk := by
  rcases g.process_disk_cases D t with hdisk | ⟨_, f, _, hdisk⟩
  · rw [hdisk]
    exact hD.keeps
  · rw [hdisk]
    exact keeps_save hD _ _

theorem sameFile_process (g : Generator) (h : G.Bears t.path) (hk : d.Keeps D)
    (hl : l ≠ G.place t.path) : D.SameFile (g.process D t).disk l := by
  rcases g.process_disk_cases D t with hdisk | ⟨_, f, _, hdisk⟩
  · rw [hdisk]
    exact .refl D l
  · rw [hdisk]
    exact Ground.sameFile_save h hk hl _

theorem keeps_foldl (g : Generator) (ts : List TestTarget) (r : Run) (hr : r.disk.Plain) :
    r.disk.Keeps (ts.foldl g.advance r).disk := by
  induction ts generalizing r with
  | nil => exact hr.keeps
  | cons t ts ih =>
    have hstep := g.keeps_process hr t
    exact hstep.trans (ih (g.advance r t) hstep.plain)

/-- Targets leave the files at the places of others alone. -/
theorem sameFile_foldl (g : Generator) (ts : List TestTarget) (r : Run) (hk : d.Keeps r.disk)
    (hts : ∀ t ∈ ts, G.Bears t.path ∧ G.place t.path ≠ l) :
    r.disk.SameFile (ts.foldl g.advance r).disk l := by
  induction ts generalizing r with
  | nil => exact .refl r.disk l
  | cons t ts ih =>
    obtain ⟨ht, hne⟩ := hts t List.mem_cons_self
    have hstep := g.keeps_process hk.plain t
    exact (sameFile_process g ht hk hne.symm).trans
      (ih (g.advance r t) (hk.trans hstep) fun u hu => hts u (List.mem_cons_of_mem _ hu))

/-- The targets of a run, each with the file system that it finds. -/
def turns (g : Generator) : Disk → List TestTarget → List (Disk × TestTarget)
  | _, [] => []
  | d, t :: ts => (d, t) :: g.turns (g.process d t).disk ts

theorem map_snd_turns (g : Generator) (d : Disk) (ts : List TestTarget) :
    (g.turns d ts).map Prod.snd = ts := by
  induction ts generalizing d with
  | nil => rfl
  | cons t ts ih => rw [turns, List.map_cons, ih]

theorem mem_of_mem_turns (hx : (D, t) ∈ g.turns d ts) : t ∈ ts := by
  rw [← map_snd_turns g d ts]
  exact List.mem_map_of_mem hx

theorem exists_mem_turns (g : Generator) (d : Disk) (ht : t ∈ ts) :
    ∃ D, (D, t) ∈ g.turns d ts := by
  rw [← map_snd_turns g d ts] at ht
  obtain ⟨x, hx, rfl⟩ := List.mem_map.mp ht
  exact ⟨x.1, hx⟩

theorem turns_of_dry (hdry : g.settings.dryRun = true) (d : Disk) (ts : List TestTarget) :
    g.turns d ts = ts.map (d, ·) := by
  induction ts with
  | nil => rfl
  | cons t ts ih => rw [turns, process_disk_of_dry hdry, ih, List.map_cons]

theorem outcomes_foldl (g : Generator) (ts : List TestTarget) (r : Run) :
    (ts.foldl g.advance r).outcomes =
      r.outcomes ++ (g.turns r.disk ts).map fun x => (x.2, (g.process x.1 x.2).result) := by
  induction ts generalizing r with
  | nil => exact (List.append_nil _).symm
  | cons t ts ih =>
    rw [List.foldl_cons, ih, turns, List.map_cons]
    exact List.append_assoc _ _ _

theorem summary_foldl (g : Generator) (ts : List TestTarget) (r : Run) :
    (ts.foldl g.advance r).summary =
      (g.turns r.disk ts).foldl (fun s x => count s (g.process x.1 x.2)) r.summary := by
  induction ts generalizing r with
  | nil => rfl
  | cons t ts ih =>
    rw [List.foldl_cons, ih]
    rfl

theorem outcomes_generate (g : Generator) (d : Disk) (files : List ScannedFile) :
    (g.generate d files).outcomes =
      (g.turns d (dropCollisions (g.targets d files))).map fun x =>
        (x.2, (g.process x.1 x.2).result) :=
  outcomes_foldl g _ _

theorem summary_generate (g : Generator) (d : Disk) (files : List ScannedFile) :
    (g.generate d files).summary =
      (g.turns d (dropCollisions (g.targets d files))).foldl
        (fun s x => count s (g.process x.1 x.2)) (readSummary d files) :=
  summary_foldl g _ _

/-- What a target finds on its turn and leaves behind: before the turn and after it, the others
leave the file at its place alone. -/
structure Turn (G : Ground d) (g : Generator) (start final D : Disk) (t : TestTarget) : Prop where
  keeps : d.Keeps D
  before : start.SameFile D (G.place t.path)
  keeps_after : (g.process D t).disk.Keeps final
  after : (g.process D t).disk.SameFile final (G.place t.path)

/-- If the places of the targets differ, each has a turn of its own. -/
theorem turn_of_mem_turns (r : Run) (hk : d.Keeps r.disk) (hbears : ∀ t ∈ ts, G.Bears t.path)
    (hplaces : ts.Pairwise fun t u => G.place t.path ≠ G.place u.path)
    (hx : (D, t) ∈ g.turns r.disk ts) : Turn G g r.disk (ts.foldl g.advance r).disk D t := by
  induction ts generalizing r with
  | nil => cases hx
  | cons u ts ih =>
    obtain ⟨hu, hts⟩ := List.forall_mem_cons.mp hbears
    obtain ⟨hne, hplaces⟩ := List.pairwise_cons.mp hplaces
    have hstep := g.keeps_process hk.plain u
    rcases List.mem_cons.mp hx with hx | hx
    · cases hx
      refine ⟨hk, .refl r.disk _, g.keeps_foldl ts (g.advance r t) hstep.plain, ?_⟩
      apply sameFile_foldl g ts (g.advance r t) (hk.trans hstep)
      intro v hv
      exact ⟨hts v hv, (hne v hv).symm⟩
    · have hturn := ih (g.advance r u) (hk.trans hstep) hts hplaces hx
      have hother := sameFile_process g hu hk (hne t (mem_of_mem_turns hx)).symm
      exact { hturn with before := hother.trans hturn.before }

theorem Turn.planFor_eq {start final : Disk} (h : Turn G g start final D t)
    (hbears : G.Bears t.path) (hk : d.Keeps start) : g.planFor D t = g.planFor start t :=
  planFor_congr hbears hk h.keeps h.before

end Generator

end Scaffold
