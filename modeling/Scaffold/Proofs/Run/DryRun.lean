import Scaffold.Proofs.Run.Frame

namespace Scaffold
set_option autoImplicit true

open Disk

namespace Generator

variable {g : Generator} {d : Disk} {t : TestTarget}

/-- The generator with dry runs switched on or off. -/
def withDryRun (g : Generator) (dry : Bool) : Generator :=
  { g with settings := { g.settings with dryRun := dry } }

/-- Whether the file of a test class could not be written. -/
def wasRefused (result : Except TargetError Outcome) : Bool :=
  match result with
  | .error (.unwritable _ _) => true
  | _ => false

theorem planFor_withDryRun (g : Generator) (dry : Bool) (d : Disk) (t : TestTarget) :
    (g.withDryRun dry).planFor d t = g.planFor d t :=
  rfl

theorem commit_wet (g : Generator) (d : Disk) (t : TestTarget) (f : Draft) :
    (g.withDryRun false).commit d t f =
      match d.save t.path f.text with
      | (d', .ok ()) => (d', .ok ())
      | (d', .error cause) => (d', .error (.unwritable t.path cause)) :=
  rfl

/-- A target with the same plan comes to the same in both runs, unless its file is refused. -/
theorem process_withDryRun (hplan : g.planFor D t = g.planFor d t)
    (hsaved : wasRefused ((g.withDryRun false).process D t).result = false) :
    ((g.withDryRun true).process d t).result = ((g.withDryRun false).process D t).result ∧
      ((g.withDryRun true).process d t).added = ((g.withDryRun false).process D t).added := by
  unfold process at hsaved ⊢
  simp only [planFor_withDryRun, hplan] at hsaved ⊢
  cases hp : g.planFor d t with
  | error e => exact ⟨rfl, rfl⟩
  | ok p =>
    simp only [hp] at hsaved ⊢
    split
    · exact ⟨rfl, rfl⟩
    · rename_i hopen
      rw [if_neg hopen] at hsaved
      cases hdraft : draft t p with
      | error e => exact ⟨rfl, rfl⟩
      | ok f =>
        simp only [hdraft, commit_wet] at hsaved ⊢
        cases hsave : D.save t.path f.text with
        | mk D' r =>
          cases r with
          | ok u => exact ⟨rfl, rfl⟩
          | error e =>
            simp only [hsave] at hsaved
            cases hsaved

theorem count_congr (s : Summary) (hresult : p.result = q.result) (hadded : p.added = q.added) :
    count s p = count s q := by
  rw [count, count, hresult, hadded]

theorem turns_withDryRun (g : Generator) (d : Disk) (ts : List TestTarget) :
    (g.withDryRun true).turns d ts =
      ((g.withDryRun false).turns d ts).map fun x => (d, x.2) := by
  rw [turns_of_dry rfl]
  nth_rewrite 1 [← map_snd_turns (g.withDryRun false) d ts]
  rw [List.map_map]
  rfl

theorem process_of_mem_turns {G : Ground d} (hbears : ∀ t ∈ ts, G.Bears t.path)
    (hplaces : ts.Pairwise fun t u => G.place t.path ≠ G.place u.path)
    (hsaved : ∀ x ∈ (g.withDryRun false).turns d ts,
      wasRefused ((g.withDryRun false).process x.1 x.2).result = false)
    (hx : x ∈ (g.withDryRun false).turns d ts) :
    ((g.withDryRun true).process d x.2).result = ((g.withDryRun false).process x.1 x.2).result ∧
      ((g.withDryRun true).process d x.2).added =
        ((g.withDryRun false).process x.1 x.2).added := by
  have hturn := turn_of_mem_turns ⟨d, {}, [], []⟩ G.plain.keeps hbears hplaces hx
  have hplan := hturn.planFor_eq (hbears x.2 (mem_of_mem_turns hx)) G.plain.keeps
  exact process_withDryRun hplan (hsaved x hx)

/-- A dry run leaves the file system as it is. If every file can be written, it counts what the run
counts, and each target comes to the same. The paths must be grounded: a step upwards behind a
directory that is yet to be made hides a file from the dry run, which the run finds once it has
made the directory for an earlier target. -/
theorem dry_run_predicts (g : Generator) (d : Disk) (files : List ScannedFile) :
    ((g.withDryRun true).generate d files).disk = d ∧
      (d.Plain → Grounded d (g.targets d files) →
        (∀ o ∈ ((g.withDryRun false).generate d files).outcomes, wasRefused o.2 = false) →
        ((g.withDryRun true).generate d files).summary =
            ((g.withDryRun false).generate d files).summary ∧
          ((g.withDryRun true).generate d files).outcomes =
            ((g.withDryRun false).generate d files).outcomes) := by
  refine ⟨foldl_disk_of_dry rfl _ _, ?_⟩
  intro hd hg hsaved
  obtain ⟨G, hfound⟩ := hd.exists_ground hg
  have hbears : ∀ t ∈ dropCollisions (g.targets d files), G.Bears t.path :=
    fun t ht => hfound t (mem_of_mem_dropCollisions ht)
  rw [outcomes_generate, List.forall_mem_map] at hsaved
  have hsame := fun x => process_of_mem_turns (x := x) hbears
    (Ground.pairwise_places _ hfound) hsaved
  constructor
  · rw [summary_generate, summary_generate]
    change ((g.withDryRun true).turns d (dropCollisions (g.targets d files))).foldl _ _ = _
    rw [turns_withDryRun, List.foldl_map]
    apply List.foldl_ext
    intro s x hx
    exact count_congr s (hsame x hx).1 (hsame x hx).2
  · rw [outcomes_generate, outcomes_generate]
    change ((g.withDryRun true).turns d (dropCollisions (g.targets d files))).map _ = _
    rw [turns_withDryRun, List.map_map]
    apply List.map_congr_left
    intro x hx
    exact congrArg (x.2, ·) (hsame x hx).1

theorem dry_run_predicts_halfBroken :
    halfBroken.Plain ∧ Grounded halfBroken (intoTests.targets halfBroken halfBrokenFiles) ∧
      ((intoTests.withDryRun false).generate halfBroken halfBrokenFiles).outcomes.map
        (fun o => wasRefused o.2) = [false, false] ∧
      ((intoTests.withDryRun true).generate halfBroken halfBrokenFiles).disk = halfBroken ∧
      ((intoTests.withDryRun true).generate halfBroken halfBrokenFiles).summary =
        ((intoTests.withDryRun false).generate halfBroken halfBrokenFiles).summary := by
  have hsaved : ((intoTests.withDryRun false).generate halfBroken halfBrokenFiles).outcomes.map
      (fun o => wasRefused o.2) = [false, false] := by
    decide +kernel
  obtain ⟨hdisk, hagree⟩ := dry_run_predicts intoTests halfBroken halfBrokenFiles
  refine ⟨plain_halfBroken, grounded_halfBroken, hsaved, hdisk, ?_⟩
  refine (hagree plain_halfBroken grounded_halfBroken ?_).1
  intro o ho
  have hmem : wasRefused o.2 ∈ [false, false] := hsaved ▸ List.mem_map_of_mem ho
  simpa using hmem

end Generator

end Scaffold
