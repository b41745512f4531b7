import Scaffold.Proofs.Disk.Lexical
import Scaffold.Proofs.Disk.Links
import Scaffold.Proofs.Run.Turns

namespace Scaffold
set_option autoImplicit true

open Disk

namespace Generator

variable {g : Generator} {d D : Disk} {t : TestTarget} {ts : List TestTarget}
  {x : Disk × TestTarget}

/-- Whether a test class was made or changed. -/
def wasWritten (result : Except TargetError Outcome) : Bool :=
  match result with
  | .ok .created | .ok .updated => true
  | _ => false

/-- The text that a merge leaves to be written. -/
def printed (p : TestPlan) (m : SyntaxTree) : String :=
  (m.print? p.tree).getD ""

/-- A turn that merges the missing tests of a plan. Unless in a dry run, it writes the result to the
file to which the target's path leads, and to no other file. -/
structure Adds (g : Generator) (x : Disk × TestTarget) (p : TestPlan) (m : SyntaxTree) :
    Prop where
  plan_eq : g.planFor x.1 x.2 = .ok p
  missing_ne_nil : p.missing ≠ []
  merge_eq : p.tree.merge x.2.namesp x.2.className p.missing = .ok m
  outcome : (g.process x.1 x.2).result = .ok (if p.isExisting then .updated else .created)
  added : (g.process x.1 x.2).added = p.missing.length
  written : g.settings.dryRun = false → ∃ l,
    (g.process x.1 x.2).disk.find x.2.path true =
      .ok (.present l (.file (printed p m).toUTF8)) ∧
    ∀ k, k ≠ l → x.1.SameFile (g.process x.1 x.2).disk k

/-- The file that a turn writes, if it writes one. -/
def writtenBy (g : Generator) (x : Disk × TestTarget) : Option Location :=
  if g.settings.dryRun || !wasWritten (g.process x.1 x.2).result then none
  else match (g.process x.1 x.2).disk.find x.2.path true with
    | .ok s => some s.place
    | .error _ => none

theorem commit_ok (h : g.commit D t f = (D', .ok ())) (hwet : g.settings.dryRun = false) :
    D.save t.path f.text = (D', .ok ()) := by
  rw [commit, if_neg (by simp [hwet])] at h
  split at h
  · rename_i hsave
    cases h
    exact hsave
  · cases h

theorem sameFile_commit_error (h : g.commit D t f = (D', .error e)) (l : Location) :
    D.SameFile D' l := by
  rw [commit] at h
  split at h
  · cases h
  · split at h
    · cases h
    · rename_i hsave
      cases h
      exact sameFile_save_of_error hsave l

theorem exists_adds_of_draft (hplan : g.planFor D t = .ok p) (hopen : p.isSatisfied = false)
    (hdraft : draft t p = .ok f) (hcommit : g.commit D t f = (D', .ok ())) :
    ∃ m, g.Adds (D, t) p m := by
  have hprocess : g.process D t =
      ⟨D', mergeEvents t p ++ [g.draftEvent t f], .ok f.outcome, f.added.length⟩ := by
    simp [process, hplan, hopen, hdraft, hcommit]
  rw [draft] at hdraft
  split at hdraft
  · rename_i m hmerge
    cases hdraft
    refine ⟨m, hplan, TestPlan.isSatisfied_eq_false.mp hopen, hmerge, ?_, ?_, ?_⟩
    · rw [hprocess]
    · rw [hprocess]
    · intro hwet
      rw [hprocess]
      exact find_save (commit_ok hcommit hwet)
  · cases hdraft

/-- A turn adds the missing tests, or it makes no test class and writes no file. -/
theorem process_cases (g : Generator) (D : Disk) (t : TestTarget) :
    (∃ p m, g.Adds (D, t) p m) ∨
      (wasWritten (g.process D t).result = false ∧ ∀ l, D.SameFile (g.process D t).disk l) := by
  cases hplan : g.planFor D t with
  | error e =>
    refine .inr ?_
    simp only [process, hplan]
    exact ⟨rfl, fun l => .refl D l⟩
  | ok p =>
    cases hopen : p.isSatisfied with
    | true =>
      refine .inr ?_
      simp only [process, hplan, hopen, if_true]
      exact ⟨rfl, fun l => .refl D l⟩
    | false =>
      cases hdraft : draft t p with
      | error e =>
        refine .inr ?_
        simp only [process, hplan, hopen, hdraft, Bool.false_eq_true, if_false]
        exact ⟨rfl, fun l => .refl D l⟩
      | ok f =>
        cases hcommit : g.commit D t f with
        | mk D' made =>
          cases made with
          | ok _ => exact .inl ⟨p, exists_adds_of_draft hplan hopen hdraft hcommit⟩
          | error e =>
            refine .inr ?_
            simp only [process, hplan, hopen, hdraft, hcommit, Bool.false_eq_true, if_false]
            exact ⟨rfl, fun l => sameFile_commit_error hcommit l⟩

theorem Adds.wasWritten_eq (h : g.Adds x p m) :
    wasWritten (g.process x.1 x.2).result = true := by
  rw [h.outcome]
  split <;> rfl

theorem exists_adds (hx : wasWritten (g.process x.1 x.2).result = true) : ∃ p m, g.Adds x p m := by
  rcases g.process_cases x.1 x.2 with hadds | ⟨hnot, _⟩
  · exact hadds
  · cases hnot.symm.trans hx

theorem Adds.writtenBy_eq_some (h : g.Adds x p m) (hwet : g.settings.dryRun = false) :
    ∃ l, g.writtenBy x = some l ∧
      (g.process x.1 x.2).disk.get? l = some (.file (printed p m).toUTF8) ∧
      ∀ k, k ≠ l → x.1.SameFile (g.process x.1 x.2).disk k := by
  obtain ⟨l, hfind, hothers⟩ := h.written hwet
  refine ⟨l, ?_, get?_of_find_present hfind, hothers⟩
  simp only [writtenBy, hwet, h.wasWritten_eq, hfind]
  rfl

theorem isSome_writtenBy (hwet : g.settings.dryRun = false) (x : Disk × TestTarget) :
    (g.writtenBy x).isSome = wasWritten (g.process x.1 x.2).result := by
  cases hx : wasWritten (g.process x.1 x.2).result with
  | true =>
    obtain ⟨p, m, hadds⟩ := exists_adds hx
    obtain ⟨l, hl, _⟩ := hadds.writtenBy_eq_some hwet
    rw [hl]
    rfl
  | false =>
    rw [writtenBy, hx, if_pos (by simp)]
    rfl

/-- A turn changes no file but the one it writes. -/
theorem sameFile_of_writtenBy_ne (hl : g.writtenBy x ≠ some l) :
    x.1.SameFile (g.process x.1 x.2).disk l := by
  cases hdry : g.settings.dryRun with
  | true =>
    rw [process_disk_of_dry hdry]
    exact .refl x.1 l
  | false =>
    rcases g.process_cases x.1 x.2 with ⟨p, m, hadds⟩ | ⟨_, hsame⟩
    · obtain ⟨k, hk, _, hothers⟩ := hadds.writtenBy_eq_some hdry
      apply hothers
      rintro rfl
      exact hl hk
    · exact hsame l

/-- The files that the turns of some targets write. -/
def writtenFiles (g : Generator) (d : Disk) (ts : List TestTarget) : List Location :=
  (g.turns d ts).filterMap g.writtenBy

theorem writtenFiles_cons (g : Generator) (d : Disk) (t : TestTarget) (ts : List TestTarget) :
    g.writtenFiles d (t :: ts) =
      (g.writtenBy (d, t)).toList ++ g.writtenFiles (g.process d t).disk ts := by
  rw [writtenFiles, turns, List.filterMap_cons]
  cases g.writtenBy (d, t) <;> rfl

/-- The turns change no file but those that they write. -/
theorem sameFile_of_notMem_writtenFiles (r : Run) (hr : r.disk = d)
    (hl : l ∉ g.writtenFiles d ts) : d.SameFile (ts.foldl g.advance r).disk l := by
  induction ts generalizing d r with
  | nil =>
    rw [← hr]
    exact .refl r.disk l
  | cons t ts ih =>
    subst hr
    rw [writtenFiles_cons, List.mem_append, not_or, Option.mem_toList] at hl
    have hstep := sameFile_of_writtenBy_ne (x := (r.disk, t)) hl.1
    exact hstep.trans (ih (g.advance r t) rfl hl.2)

/-- What a turn writes stays if no other turn writes the same file. -/
theorem sameFile_after (r : Run) (hr : r.disk = d) (hfiles : (g.writtenFiles d ts).Nodup)
    (hx : x ∈ g.turns d ts) (hl : g.writtenBy x = some l) :
    (g.process x.1 x.2).disk.SameFile (ts.foldl g.advance r).disk l := by
  induction ts generalizing d r with
  | nil => cases hx
  | cons t ts ih =>
    subst hr
    rw [writtenFiles_cons, List.nodup_append] at hfiles
    obtain ⟨_, hrest, hapart⟩ := hfiles
    rcases List.mem_cons.mp hx with rfl | hx
    · apply sameFile_of_notMem_writtenFiles (g.advance r t) rfl
      intro hmem
      exact hapart l (Option.mem_toList.mpr hl) l hmem rfl
    · exact ih (g.advance r t) rfl hrest hx

theorem keeps_of_mem_turns (hd : d.Plain) (hx : x ∈ g.turns d ts) : d.Keeps x.1 := by
  induction ts generalizing d with
  | nil => cases hx
  | cons t ts ih =>
    rcases List.mem_cons.mp hx with rfl | hx
    · exact hd.keeps
    · have hstep := g.keeps_process hd t
      exact hstep.trans (ih hstep.plain hx)

/-- Without links a turn writes the file that the target's path spells. -/
theorem writtenBy_eq_placeOf (hd : d.Plain) (hx : x ∈ g.turns d ts)
    (hl : g.writtenBy x = some l) : l = d.placeOf x.2.path := by
  have hk := keeps_of_mem_turns hd hx
  have hafter := hk.trans (g.keeps_process hk.plain x.2)
  rw [writtenBy] at hl
  split at hl
  · cases hl
  · split at hl
    · rename_i s hfind
      cases hl
      rw [hafter.plain.place_eq hfind, hafter.placeOf_eq]
    · cases hl

/-- Without links, targets whose paths spell places of their own have files of their own. -/
theorem nodup_writtenFiles (hd : d.Plain)
    (hplaces : ts.Pairwise fun t u => d.placeOf t.path ≠ d.placeOf u.path) :
    (g.writtenFiles d ts).Nodup := by
  rw [← map_snd_turns g d ts, List.pairwise_map] at hplaces
  rw [writtenFiles, List.Nodup, List.pairwise_filterMap]
  apply hplaces.imp_of_mem
  rintro x y hx hy hne l hl k hk rfl
  exact hne ((writtenBy_eq_placeOf hd hx hl).symm.trans (writtenBy_eq_placeOf hd hy hk))

end Generator

end Scaffold
