import Mathlib.Logic.Relation
import Mathlib.Algebra.Order.BigOperators.Group.List
import Mathlib.Algebra.Order.Ring.Nat
import Scaffold.Generator

namespace Scaffold
set_option autoImplicit true

theorem Generator.outcome_ne_satisfied (h : draft t p = .ok f) : f.outcome ≠ .satisfied := by
  unfold draft at h
  split at h
  · cases h
    cases p.isExisting <;> simp
  · cases h

/-- What the jobs share. -/
structure Shared where
  disk : Disk
  summary : Summary

/-- How far the work on a target is. While directories are made, the steps of those that wait for
the one above them are kept, the innermost last. -/
inductive Job where
  | waiting
  | planned (plan : TestPlan)
  | climbing (draft : Draft) (steps : List Component) (below : List (List Component))
  | descending (draft : Draft) (below : List (List Component))
  | written (draft : Draft)
  | counted (draft : Draft)
  | finished (result : Except TargetError Outcome) (added : Nat)

namespace Job

def isFinished : Job → Bool
  | .finished _ _ => true
  | _ => false

def unwritable (t : TestTarget) (e : OsError) : Job :=
  .finished (.error (.unwritable t.path e)) 0

/-- One step of the work on a target. -/
def next (g : Generator) (t : TestTarget) (s : Shared) : Job → Shared × Job
  | .waiting =>
    match g.planFor s.disk t with
    | .error e => (s, .finished (.error e) 0)
    | .ok p => (s, if p.isSatisfied then .finished (.ok .satisfied) 0 else .planned p)
  | .planned p =>
    match Generator.draft t p with
    | .error e => (s, .finished (.error e) 0)
    | .ok f =>
      (s, if g.settings.dryRun then .written f
        else .climbing f t.path.parentComponents.reverse [])
  | .climbing f [] below => (s, .descending f below)
  | .climbing f (c :: cs) below =>
    let p := Path.ofComponents (c :: cs).reverse
    match s.disk.makeDirectory p with
    | .ok d => ({ s with disk := d }, .descending f below)
    | .error .notFound => (s, .climbing f cs ((c :: cs) :: below))
    | .error e => (s, if s.disk.isDirectory p then .descending f below else unwritable t e)
  | .descending f (steps :: below) =>
    let p := Path.ofComponents steps.reverse
    match s.disk.makeDirectory p with
    | .ok d => ({ s with disk := d }, .descending f below)
    | .error e => (s, if s.disk.isDirectory p then .descending f below else unwritable t e)
  | .descending f [] =>
    match s.disk.writeText t.path f.text with
    | .ok d => ({ s with disk := d }, .written f)
    | .error e => (s, unwritable t e)
  | .written f =>
    ({ s with summary := { s.summary with classesUpdated := s.summary.classesUpdated + 1 } },
      .counted f)
  | .counted f =>
    ({ s with
        summary := { s.summary with
          methodsAdded := s.summary.methodsAdded + f.added.length.toUInt64 } },
      .finished (.ok f.outcome) f.added.length)
  | .finished r n => (s, .finished r n)

def weight (t : TestTarget) : Job → Nat
  | .waiting => 2 * t.path.parentComponents.length + 6
  | .planned _ => 2 * t.path.parentComponents.length + 5
  | .climbing _ steps below => 2 * steps.length + below.length + 4
  | .descending _ below => below.length + 3
  | .written _ => 2
  | .counted _ => 1
  | .finished _ _ => 0

attribute [local simp] next

theorem weight_next (g : Generator) (t : TestTarget) (s : Shared) (j : Job)
    (h : j.isFinished = false) : (j.next g t s).2.weight t < j.weight t := by
  cases j with
  | waiting =>
    rw [next]
    split
    · exact Nat.succ_pos _
    · split <;> simp [weight]
  | planned p =>
    rw [next]
    split
    · exact Nat.succ_pos _
    · split <;> simp [weight]
  | climbing f steps below =>
    cases steps with
    | nil => simp [weight]
    | cons c cs =>
      simp only [next]
      split
      · simp only [weight, List.length_cons]
        omega
      · simp only [weight, List.length_cons]
        omega
      · split <;> simp only [weight, unwritable, List.length_cons] <;> omega
  | descending f below =>
    cases below with
    | nil =>
      rw [next]
      split <;> simp [weight, unwritable]
    | cons steps below =>
      simp only [next]
      split
      · simp [weight]
      · split <;> simp [weight, unwritable]
  | written f => simp [weight]
  | counted f => simp [weight]
  | finished r n => cases h

section Climbing

variable {g : Generator} {t : TestTarget} {s : Shared} {f : Draft} {c : Component}
  {cs steps : List Component} {below : List (List Component)}

theorem next_climbing_of_ok (h : s.disk.makeDirectory (.ofComponents (c :: cs).reverse) = .ok d) :
    (climbing f (c :: cs) below).next g t s = (⟨d, s.summary⟩, .descending f below) := by
  simp only [next, h]

theorem next_climbing_of_missing
    (h : s.disk.makeDirectory (.ofComponents (c :: cs).reverse) = .error .notFound) :
    (climbing f (c :: cs) below).next g t s = (s, .climbing f cs ((c :: cs) :: below)) := by
  simp only [next, h]

theorem next_climbing_of_error
    (h : s.disk.makeDirectory (.ofComponents (c :: cs).reverse) = .error e) (he : e ≠ .notFound) :
    (climbing f (c :: cs) below).next g t s =
      (s, if s.disk.isDirectory (.ofComponents (c :: cs).reverse) then .descending f below
        else .unwritable t e) := by
  simp only [next, h]

theorem next_descending_of_ok (h : s.disk.makeDirectory (.ofComponents steps.reverse) = .ok d) :
    (descending f (steps :: below)).next g t s = (⟨d, s.summary⟩, .descending f below) := by
  simp only [next, h]

theorem next_descending_of_error
    (h : s.disk.makeDirectory (.ofComponents steps.reverse) = .error e) :
    (descending f (steps :: below)).next g t s =
      (s, if s.disk.isDirectory (.ofComponents steps.reverse) then .descending f below
        else .unwritable t e) := by
  simp only [next, h]

end Climbing

end Job

theorem Disk.makeDirectories_of_error {d : Disk}
    (h : d.makeDirectory (.ofComponents (c :: cs).reverse) = .error e) (he : e ≠ .notFound) :
    d.makeDirectories (c :: cs) =
      (d, if d.isDirectory (.ofComponents (c :: cs).reverse) then .ok () else .error e) := by
  simp only [makeDirectories, h]

namespace Job

section Alone

open Relation (ReflTransGen)

def Alone (g : Generator) (t : TestTarget) (a b : Shared × Job) : Prop :=
  a.2.isFinished = false ∧ b = a.2.next g t a.1

def after (t : TestTarget) (j : Job) : Except OsError Unit → Job
  | .ok _ => j
  | .error e => .unwritable t e

variable {g : Generator} {t : TestTarget} {s : Shared} {f : Draft}

theorem alone_next (h : isFinished j = false) (heq : j.next g t s = x) :
    ReflTransGen (Alone g t) (s, j) x :=
  .single ⟨h, heq.symm⟩

theorem alone_climbing (steps : List Component) (below : List (List Component))
    (h : s.disk.makeDirectories steps = (d, r)) :
    ReflTransGen (Alone g t) (s, .climbing f steps below)
      (⟨d, s.summary⟩, after t (.descending f below) r) := by
  induction steps generalizing below d r with
  | nil =>
    cases h
    exact alone_next rfl rfl
  | cons c cs ih =>
    cases hmake : s.disk.makeDirectory (.ofComponents (c :: cs).reverse) with
    | ok d' =>
      simp only [Disk.makeDirectories, hmake, Prod.mk.injEq] at h
      obtain ⟨rfl, rfl⟩ := h
      exact alone_next rfl (next_climbing_of_ok hmake)
    | error e =>
      by_cases he : e = .notFound
      · subst he
        cases hcs : s.disk.makeDirectories cs with
        | mk d' r' =>
          refine (alone_next rfl (next_climbing_of_missing hmake)).trans ((ih _ hcs).trans ?_)
          cases r' with
          | error e =>
            simp only [Disk.makeDirectories, hmake, hcs, Prod.mk.injEq] at h
            obtain ⟨rfl, rfl⟩ := h
            exact .refl
          | ok u =>
            simp only [Disk.makeDirectories, hmake, hcs] at h
            cases hagain : d'.makeDirectory (.ofComponents (c :: cs).reverse) with
            | ok d'' =>
              simp only [hagain, Prod.mk.injEq] at h
              obtain ⟨rfl, rfl⟩ := h
              exact alone_next rfl (next_descending_of_ok hagain)
            | error e =>
              simp only [hagain, Prod.mk.injEq] at h
              obtain ⟨rfl, rfl⟩ := h
              refine alone_next rfl ((next_descending_of_error hagain).trans ?_)
              split <;> rfl
      · rw [Disk.makeDirectories_of_error hmake he, Prod.mk.injEq] at h
        obtain ⟨rfl, rfl⟩ := h
        refine alone_next rfl ((next_climbing_of_error hmake he).trans ?_)
        split <;> rfl

theorem alone_written (d : Disk) (s : Summary) :
    ReflTransGen (Alone g t) (⟨d, s⟩, .written f)
      (⟨d, s.classUpdated f.added.length.toUInt64⟩, .finished (.ok f.outcome) f.added.length) :=
  (alone_next rfl rfl).trans (alone_next rfl rfl)

def committed (f : Draft) (d : Disk) (s : Summary) : Except TargetError Unit → Shared × Job
  | .ok _ =>
    (⟨d, s.classUpdated f.added.length.toUInt64⟩, .finished (.ok f.outcome) f.added.length)
  | .error e => (⟨d, s⟩, .finished (.error e) 0)

theorem alone_commit (s : Summary) (hdraft : Generator.draft t p = .ok f)
    (h : g.commit d t f = (d', r)) :
    ReflTransGen (Alone g t) (⟨d, s⟩, .planned p) (committed f d' s r) := by
  have hnext : next g t ⟨d, s⟩ (.planned p) = (⟨d, s⟩, if g.settings.dryRun then .written f
      else .climbing f t.path.parentComponents.reverse []) := by
    simp only [next, hdraft]
  refine (alone_next rfl hnext).trans ?_
  unfold Generator.commit at h
  by_cases hdry : g.settings.dryRun = true
  · rw [if_pos hdry, Prod.mk.injEq] at h
    obtain ⟨rfl, rfl⟩ := h
    rw [if_pos hdry]
    exact alone_written d s
  rw [if_neg hdry] at h ⊢
  cases hmade : d.makeDirectories t.path.parentComponents.reverse with
  | mk d₁ r₁ =>
    refine (alone_climbing _ [] hmade).trans ?_
    cases r₁ with
    | error e =>
      simp only [Disk.save, hmade, Prod.mk.injEq] at h
      obtain ⟨rfl, rfl⟩ := h
      exact .refl
    | ok u =>
      simp only [Disk.save, hmade] at h
      cases hwritten : d₁.writeText t.path f.text with
      | error e =>
        simp only [hwritten, Prod.mk.injEq] at h
        obtain ⟨rfl, rfl⟩ := h
        have hlast : next g t ⟨d₁, s⟩ (.descending f []) = (⟨d₁, s⟩, .unwritable t e) := by
          simp only [next, hwritten]
        exact alone_next rfl hlast
      | ok d₂ =>
        simp only [hwritten, Prod.mk.injEq] at h
        obtain ⟨rfl, rfl⟩ := h
        have hlast : next g t ⟨d₁, s⟩ (.descending f []) = (⟨d₂, s⟩, .written f) := by
          simp only [next, hwritten]
        exact (alone_next rfl hlast).trans (alone_written d₂ s)

theorem count_draft (hdraft : Generator.draft t p = .ok f) (s : Summary) (d : Disk)
    (events : List LogEvent) (n : Nat) :
    Generator.count s ⟨d, events, .ok f.outcome, n⟩ = s.classUpdated n.toUInt64 := by
  have hne := Generator.outcome_ne_satisfied hdraft
  cases hf : f.outcome with
  | created => rfl
  | updated => rfl
  | satisfied => exact absurd hf hne

/-- A job alone does what is done at once. -/
theorem alone_process (g : Generator) (t : TestTarget) (d : Disk) (s : Summary) :
    ReflTransGen (Alone g t) (⟨d, s⟩, .waiting)
      (⟨(g.process d t).disk, Generator.count s (g.process d t)⟩,
        .finished (g.process d t).result (g.process d t).added) := by
  cases hplan : g.planFor d t with
  | error e =>
    have hnext : next g t ⟨d, s⟩ .waiting = (⟨d, s⟩, .finished (.error e) 0) := by
      simp only [next, hplan]
    have hprocess : g.process d t = ⟨d, [], .error e, 0⟩ := by
      simp only [Generator.process, hplan]
    rw [hprocess]
    exact alone_next rfl hnext
  | ok p =>
    have hnext : next g t ⟨d, s⟩ .waiting =
        (⟨d, s⟩, if p.isSatisfied then .finished (.ok .satisfied) 0 else .planned p) := by
      simp only [next, hplan]
    refine (alone_next rfl hnext).trans ?_
    simp only [Generator.process, hplan]
    by_cases hsat : p.isSatisfied = true
    · rw [if_pos hsat, if_pos hsat]
      exact .refl
    rw [if_neg hsat, if_neg hsat]
    cases hdraft : Generator.draft t p with
    | error e =>
      have hlast : next g t ⟨d, s⟩ (.planned p) = (⟨d, s⟩, .finished (.error e) 0) := by
        simp only [next, hdraft]
      exact alone_next rfl hlast
    | ok f =>
      cases hcommit : g.commit d t f with
      | mk d' r =>
        have hlast := alone_commit s hdraft hcommit
        cases r with
        | error e =>
          simp only [hcommit]
          exact hlast
        | ok u =>
          simp only [hcommit, count_draft hdraft]
          exact hlast

end Alone

end Job

/-- Jobs at work. -/
structure Pool where
  shared : Shared
  jobs : List (TestTarget × Job)

namespace Pool

def start (d : Disk) (s : Summary) (targets : List TestTarget) : Pool :=
  ⟨⟨d, s⟩, targets.map (·, .waiting)⟩

/-- Some job that is not finished takes its next step. -/
inductive Step (g : Generator) : Pool → Pool → Prop where
  | mk (s : Shared) (pre post : List (TestTarget × Job)) (t : TestTarget) (j : Job) :
      j.isFinished = false →
      Step g ⟨s, pre ++ (t, j) :: post⟩ ⟨(j.next g t s).1, pre ++ (t, (j.next g t s).2) :: post⟩

/-- The pool after some steps. -/
abbrev Steps (g : Generator) : Pool → Pool → Prop :=
  Relation.ReflTransGen (Step g)

def Finished (p : Pool) : Prop :=
  ∀ x ∈ p.jobs, x.2.isFinished = true

def outcome? : TestTarget × Job → Option (TestTarget × Except TargetError Outcome)
  | (t, .finished r _) => some (t, r)
  | _ => none

def outcomes (p : Pool) : List (TestTarget × Except TargetError Outcome) :=
  p.jobs.filterMap outcome?

def weight (p : Pool) : Nat :=
  (p.jobs.map fun x => x.2.weight x.1).sum

theorem Step.weight_lt (h : Step g p q) : q.weight < p.weight := by
  cases h with
  | mk s pre post t j hj =>
    have hjob := j.weight_next g t s hj
    simp only [weight, List.map_append, List.map_cons, List.sum_append, List.sum_cons]
    omega

theorem exists_step_of_not_finished (h : ¬ p.Finished) : ∃ q, Step g p q := by
  simp only [Finished, not_forall, Bool.not_eq_true] at h
  obtain ⟨⟨t, j⟩, hx, hj⟩ := h
  obtain ⟨pre, post, hsplit⟩ := List.append_of_mem hx
  obtain ⟨s, jobs⟩ := p
  obtain rfl : jobs = pre ++ (t, j) :: post := hsplit
  exact ⟨_, .mk s pre post t j hj⟩

/-- No order of the steps goes on forever. -/
theorem wellFounded_step (g : Generator) : WellFounded fun q p => Step g p q :=
  Subrelation.wf Step.weight_lt (InvImage.wf weight Nat.lt_wfRel.wf)

theorem steps_of_alone (pre post : List (TestTarget × Job))
    (h : Relation.ReflTransGen (Job.Alone g t) a b) :
    Steps g ⟨a.1, pre ++ (t, a.2) :: post⟩ ⟨b.1, pre ++ (t, b.2) :: post⟩ := by
  apply h.lift fun x => Pool.mk x.1 (pre ++ (t, x.2) :: post)
  rintro ⟨s, j⟩ _ ⟨hj, rfl⟩
  exact .mk s pre post t j hj

theorem exists_sequential_from (g : Generator) (ts : List TestTarget) (r : Run)
    (pre : List (TestTarget × Job)) :
    ∃ done, Steps g ⟨⟨r.disk, r.summary⟩, pre ++ ts.map (·, .waiting)⟩
        ⟨⟨(ts.foldl g.advance r).disk, (ts.foldl g.advance r).summary⟩, pre ++ done⟩ ∧
      (∀ x ∈ done, x.2.isFinished = true) ∧
      (ts.foldl g.advance r).outcomes = r.outcomes ++ done.filterMap outcome? := by
  induction ts generalizing r pre with
  | nil => exact ⟨[], .refl, List.forall_mem_nil _, (List.append_nil _).symm⟩
  | cons t ts ih =>
    have hfirst := steps_of_alone pre (ts.map (·, .waiting))
      (Job.alone_process g t r.disk r.summary)
    obtain ⟨done, hsteps, hdone, houtcomes⟩ := ih (g.advance r t)
      (pre ++ [(t, .finished (g.process r.disk t).result (g.process r.disk t).added)])
    rw [List.append_assoc, List.append_assoc] at hsteps
    refine ⟨_ :: done, hfirst.trans hsteps, ?_, ?_⟩
    · exact List.forall_mem_cons.mpr ⟨rfl, hdone⟩
    · rw [List.foldl_cons, houtcomes]
      exact List.append_assoc _ _ _

/-- Working on the targets one after another is one order of the steps. -/
theorem exists_sequential (g : Generator) (ts : List TestTarget) (d : Disk) (s : Summary)
    (events : List LogEvent) :
    ∃ q, Steps g (start d s ts) q ∧ q.Finished ∧
      q.shared.disk = (ts.foldl g.advance ⟨d, s, events, []⟩).disk ∧
      q.shared.summary = (ts.foldl g.advance ⟨d, s, events, []⟩).summary ∧
      q.outcomes = (ts.foldl g.advance ⟨d, s, events, []⟩).outcomes := by
  obtain ⟨done, hsteps, hdone, houtcomes⟩ := exists_sequential_from g ts ⟨d, s, events, []⟩ []
  exact ⟨_, hsteps, hdone, rfl, rfl, houtcomes.symm⟩

end Pool

end Scaffold
