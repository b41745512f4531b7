import Scaffold.Proofs.Run.Progress

namespace Scaffold
set_option autoImplicit true

open Disk Generator

section Counting

def Job.classes : Job → Nat
  | .counted _ | .finished (.ok .created) _ | .finished (.ok .updated) _ => 1
  | _ => 0

def Job.methods : Job → Nat
  | .finished (.ok .created) n | .finished (.ok .updated) n => n
  | _ => 0

def Summary.plus (s : Summary) (classes methods : Nat) : Summary :=
  { s with
    classesUpdated := s.classesUpdated + UInt64.ofNat classes
    methodsAdded := s.methodsAdded + UInt64.ofNat methods }

theorem Summary.plus_zero (s : Summary) : s.plus 0 0 = s := by
  simp [plus]

theorem Summary.plus_plus (s : Summary) (a b m n : Nat) :
    (s.plus a b).plus m n = s.plus (a + m) (b + n) := by
  simp only [plus, UInt64.ofNat_add, UInt64.add_assoc]

/-- The counts after what some jobs have counted. -/
def Summary.tally (s : Summary) (jobs : List (TestTarget × Job)) : Summary :=
  s.plus (jobs.map fun x => x.2.classes).sum (jobs.map fun x => x.2.methods).sum

theorem tally_start (s : Summary) (ts : List TestTarget) :
    s.tally (ts.map (·, .waiting)) = s := by
  have hzero : ∀ f : Job → Nat, f .waiting = 0 →
      ((ts.map (·, Job.waiting)).map fun x => f x.2).sum = 0 := by
    intro f hf
    simp [Function.comp_def, hf]
  rw [Summary.tally, hzero _ rfl, hzero _ rfl, s.plus_zero]

theorem tally_step (hclasses : j'.classes = j.classes + a) (hmethods : j'.methods = j.methods + b)
    (s : Summary) (pre post : List (TestTarget × Job)) (t : TestTarget) :
    s.tally (pre ++ (t, j') :: post) = (s.tally (pre ++ (t, j) :: post)).plus a b := by
  simp only [Summary.tally, Summary.plus_plus, List.map_append, List.map_cons, List.sum_append,
    List.sum_cons, hclasses, hmethods]
  congr 1 <;> omega

theorem counts_next (g : Generator) (t : TestTarget) (s : Shared) (j : Job)
    (hj : ∀ f, j = .counted f → f.outcome ≠ .satisfied) :
    ∃ a b, (j.next g t s).2.classes = j.classes + a ∧ (j.next g t s).2.methods = j.methods + b ∧
      (j.next g t s).1.summary = s.summary.plus a b := by
  cases j with
  | waiting =>
    refine ⟨0, 0, ?_⟩
    rw [Job.next, Summary.plus_zero]
    split
    · exact ⟨rfl, rfl, rfl⟩
    · split <;> exact ⟨rfl, rfl, rfl⟩
  | planned p =>
    refine ⟨0, 0, ?_⟩
    rw [Job.next, Summary.plus_zero]
    split
    · exact ⟨rfl, rfl, rfl⟩
    · split <;> exact ⟨rfl, rfl, rfl⟩
  | climbing f steps below =>
    refine ⟨0, 0, ?_⟩
    rw [Summary.plus_zero]
    cases steps with
    | nil => exact ⟨rfl, rfl, rfl⟩
    | cons c cs =>
      simp only [Job.next]
      split
      · exact ⟨rfl, rfl, rfl⟩
      · exact ⟨rfl, rfl, rfl⟩
      · split <;> exact ⟨rfl, rfl, rfl⟩
  | descending f below =>
    refine ⟨0, 0, ?_⟩
    rw [Summary.plus_zero]
    cases below with
    | nil =>
      rw [Job.next]
      split <;> exact ⟨rfl, rfl, rfl⟩
    | cons steps below =>
      simp only [Job.next]
      split
      · exact ⟨rfl, rfl, rfl⟩
      · split <;> exact ⟨rfl, rfl, rfl⟩
  | written f => exact ⟨1, 0, rfl, rfl, by simp [Job.next, Summary.plus]⟩
  | counted f =>
    have hne := hj f rfl
    refine ⟨0, f.added.length, ?_, ?_, by simp [Job.next, Summary.plus]⟩ <;>
    · cases ho : f.outcome with
      | created => simp [Job.next, Job.classes, Job.methods, ho]
      | updated => simp [Job.next, Job.classes, Job.methods, ho]
      | satisfied => exact absurd ho hne
  | finished r n => exact ⟨0, 0, rfl, rfl, s.summary.plus_zero.symm⟩

end Counting

namespace Pool

variable {d : Disk} (G : Ground d) (g : Generator)

/-- What holds of the jobs on some targets at all times. -/
structure Inv (s : Summary) (kept : List TestTarget) (p : Pool) : Prop where
  targets : p.jobs.map Prod.fst = kept
  keeps : d.Keeps p.shared.disk
  bounded : ∀ l, p.shared.disk.get? l = d.get? l ∨
    ∃ t ∈ kept, ∃ e, Leaves G g t l e ∧ p.shared.disk.get? l = some e
  valid : ∀ x ∈ p.jobs, Job.Valid G g p.shared.disk x.1 x.2
  summary : p.shared.summary = s.tally p.jobs

/-- No target has its place at or above that of another. -/
structure Apart (kept : List TestTarget) : Prop where
  bears : ∀ t ∈ kept, G.Bears t.path
  nodup : kept.Nodup
  places : ∀ t ∈ kept, ∀ u ∈ kept, G.place t.path <+: G.place u.path → t = u

variable {G g} {s : Summary} {kept : List TestTarget} {p q : Pool}

theorem inv_start (s : Summary) (kept : List TestTarget) : Inv G g s kept (start d s kept) where
  targets := by
    rw [start, List.map_map]
    exact List.map_id kept
  keeps := G.plain.keeps
  bounded _ := .inl rfl
  valid x hx := by
    obtain ⟨t, _, rfl⟩ := List.mem_map.mp hx
    exact G.plain.along _
  summary := (tally_start s kept).symm

theorem Inv.mem (h : Inv G g s kept p) (hx : x ∈ p.jobs) : x.1 ∈ kept :=
  h.targets ▸ List.mem_map_of_mem hx

theorem fst_ne_of_nodup {pre post : List (TestTarget × Job)}
    (h : ((pre ++ (t, j) :: post).map Prod.fst).Nodup) (hx : x ∈ pre ++ post) : t ≠ x.1 := by
  rw [List.map_append, List.map_cons, List.nodup_middle, List.nodup_cons, ← List.map_append] at h
  intro heq
  have hmem : x.1 ∈ (pre ++ post).map Prod.fst := List.mem_map_of_mem hx
  exact h.1 (heq ▸ hmem)

theorem bounded_of_touches (ht : t ∈ kept) (htouches : Touches G g t D D')
    (hbounded : ∀ l, D.get? l = d.get? l ∨
      ∃ t ∈ kept, ∃ e, Leaves G g t l e ∧ D.get? l = some e) (l : Location) :
    D'.get? l = d.get? l ∨ ∃ t ∈ kept, ∃ e, Leaves G g t l e ∧ D'.get? l = some e := by
  rcases htouches with rfl | ⟨m, e, hm, hne, rfl, _, _⟩
  · exact hbounded l
  · rw [get?_put hne]
    split
    · rename_i hlm
      subst hlm
      exact .inr ⟨t, ht, e, hm, rfl⟩
    · exact hbounded l

/-- A step of one job keeps all jobs valid: its own goes on, the others are left where they
are. -/
theorem Inv.step (hapart : Apart G kept) (h : Inv G g s kept p) (hstep : Step g p q) :
    Inv G g s kept q := by
  cases hstep with
  | mk shared pre post t j hj =>
    have htmem : (t, j) ∈ pre ++ (t, j) :: post := by simp
    have ht := h.mem htmem
    have hvalid := h.valid (t, j) htmem
    obtain ⟨htouches, hnext⟩ := proceeds_next (s := shared.summary) (hapart.bears t ht) hj hvalid
    obtain ⟨a, b, hclasses, hmethods, hsummary⟩ := counts_next g t shared j (by
      rintro f rfl
      exact hvalid.1)
    refine ⟨?_, ?_, ?_, ?_, ?_⟩
    · rw [← h.targets]
      simp
    · exact h.keeps.trans (htouches.keeps h.keeps.plain)
    · exact bounded_of_touches ht htouches h.bounded
    · intro x hx
      have hx' : x = (t, (j.next g t shared).2) ∨ x ∈ pre ++ post := by
        simpa [or_left_comm] using hx
      rcases hx' with rfl | hother
      · exact hnext
      · have hmem : x ∈ pre ++ (t, j) :: post := by
          simp only [List.mem_append, List.mem_cons] at hother ⊢
          exact hother.imp_right .inr
        have hne := fst_ne_of_nodup (h.targets ▸ hapart.nodup) hother
        have hu := h.mem hmem
        exact htouches.valid (hapart.bears t ht) (hapart.places t ht _ hu)
          (hapart.places _ hu t ht) (hapart.bears _ hu) hne h.keeps.plain (h.valid x hmem)
    · rw [tally_step hclasses hmethods, ← h.summary]
      exact hsummary

theorem Inv.steps (hapart : Apart G kept) (h : Inv G g s kept p) (hsteps : Steps g p q) :
    Inv G g s kept q := by
  induction hsteps with
  | refl => exact h
  | tail _ hstep ih => exact ih.step hapart hstep

theorem exists_ends (h : Job.Valid G g D t j) (hj : j.isFinished = true) :
    ∃ r n, j = .finished r n ∧ Ends G g t r n ∧ Settled G g D t := by
  cases j with
  | finished r n => exact ⟨r, n, rfl, h⟩
  | _ => cases hj

/-- Working on a target at once is one way to what becomes of it. -/
theorem ends_process (h : G.Bears t.path) :
    Ends G g t (g.process d t).result (g.process d t).added := by
  have hapart : Apart G [t] := ⟨by simpa using h, by simp, by simp⟩
  have hinv := (inv_start (G := G) (g := g) {} [t]).steps hapart
    (steps_of_alone [] [] (Job.alone_process g t d {}))
  exact (hinv.valid _ List.mem_cons_self).1

theorem Inv.jobs_eq (hapart : Apart G kept) (h : Inv G g s kept p) (hfinished : p.Finished) :
    p.jobs = kept.map fun t => (t, .finished (g.process d t).result (g.process d t).added) := by
  rw [← h.targets, List.map_map]
  nth_rewrite 1 [← List.map_id p.jobs]
  apply List.map_congr_left
  rintro ⟨t, j⟩ hx
  obtain ⟨r, n, rfl, hends, _⟩ := exists_ends (h.valid _ hx) (hfinished _ hx)
  have hbears := hapart.bears t (h.mem hx)
  obtain ⟨rfl, rfl⟩ := hends.unique hbears (ends_process hbears)
  rfl

theorem Inv.outcomes_eq (hapart : Apart G kept) (h : Inv G g s kept p) (hfinished : p.Finished) :
    p.outcomes = kept.map fun t => (t, (g.process d t).result) := by
  rw [outcomes, h.jobs_eq hapart hfinished, List.filterMap_map]
  exact congrFun List.filterMap_eq_map kept

theorem Inv.settled (h : Inv G g s kept p) (hfinished : p.Finished) (ht : t ∈ kept) :
    Settled G g p.shared.disk t := by
  rw [← h.targets] at ht
  obtain ⟨x, hx, rfl⟩ := List.mem_map.mp ht
  obtain ⟨_, _, _, _, hsettled⟩ := exists_ends (h.valid x hx) (hfinished x hx)
  exact hsettled

theorem Inv.alike (hp : Inv G g s kept p) (hpf : p.Finished) (hq : Inv G g s kept q)
    (hqf : q.Finished) : q.shared.disk.Alike p.shared.disk := by
  refine ⟨hp.keeps.working.trans hq.keeps.working.symm, ?_⟩
  intro l
  rcases hp.bounded l with heq | ⟨t, ht, e, hl, heq⟩
  · rcases hq.bounded l with heq' | ⟨u, hu, e', hl', heq'⟩
    · rw [heq, heq']
    · rw [heq', hp.settled hpf hu l e' hl']
  · rw [heq, hq.settled hqf ht l e hl]

theorem apart_dropCollisions (hbears : ∀ t ∈ dropCollisions found, G.Bears t.path)
    (habove : ∀ t ∈ dropCollisions found, ∀ u ∈ dropCollisions found,
      t.path.components <+: u.path.components → t.path.components = u.path.components) :
    Apart G (dropCollisions found) where
  bears := hbears
  nodup := (pairwise_dropCollisions found).imp fun {t u} hne (heq : t = u) => hne (heq ▸ rfl)
  places t ht u hu hplace := by
    have hpre := (hbears t ht).components_isPrefix (hbears u hu) hplace
    exact eq_of_mem_dropCollisions ht hu (habove t ht u hu hpre)

/-- The jobs have come to what a run has come to. -/
structure Agrees (p : Pool) (r : Run) : Prop where
  disk : r.disk.Alike p.shared.disk
  summary : p.shared.summary = r.summary
  outcomes : p.outcomes = r.outcomes

theorem Inv.agrees_sequential (hapart : Apart G kept) (h : Inv G g s kept p)
    (hfinished : p.Finished) (events : List LogEvent) :
    p.Agrees (kept.foldl g.advance ⟨d, s, events, []⟩) := by
  obtain ⟨q, hsteps, hq, hdisk, hsummary, houtcomes⟩ := exists_sequential g kept d s events
  have hinv := (inv_start s kept).steps hapart hsteps
  refine ⟨hdisk ▸ h.alike hfinished hinv hq, ?_, ?_⟩
  · rw [← hsummary, h.summary, hinv.summary, h.jobs_eq hapart hfinished, hinv.jobs_eq hapart hq]
  · rw [← houtcomes, h.outcomes_eq hapart hfinished, hinv.outcomes_eq hapart hq]

end Pool

/-- Every order of the jobs' steps ends, and where it ends is the same as for one target after
another: the file system, the counts and what became of each target, which is what becomes of it
alone. The paths must be grounded: a step upwards behind a directory that is yet to be made hides
a file until another job makes the directory. -/
theorem interleavings_agree (g : Generator) (d : Disk) (found : List TestTarget) (s : Summary)
    (events : List LogEvent) (hd : d.Plain) (hg : Grounded d (dropCollisions found))
    (habove : ∀ t ∈ dropCollisions found, ∀ u ∈ dropCollisions found,
      t.path.components <+: u.path.components → t.path.components = u.path.components) :
    (WellFounded fun q p => Pool.Step g p q) ∧
    ∀ p, Pool.Steps g (.start d s (dropCollisions found)) p → (∀ q, ¬ Pool.Step g p q) →
      p.Finished ∧ p.Agrees ((dropCollisions found).foldl g.advance ⟨d, s, events, []⟩) ∧
      p.outcomes = (dropCollisions found).map fun t => (t, (g.process d t).result) := by
  obtain ⟨G, hbears⟩ := hd.exists_ground hg
  have hapart := Pool.apart_dropCollisions hbears habove
  refine ⟨Pool.wellFounded_step g, ?_⟩
  intro p hsteps hend
  have hfinished : p.Finished := by
    by_contra hnot
    obtain ⟨q, hstep⟩ := Pool.exists_step_of_not_finished hnot
    exact hend q hstep
  have hinv := (Pool.inv_start s _).steps hapart hsteps
  exact ⟨hfinished, hinv.agrees_sequential hapart hfinished events,
    hinv.outcomes_eq hapart hfinished⟩

theorem interleavings_agree_halfBroken :
    let kept := dropCollisions (intoTests.targets halfBroken halfBrokenFiles)
    halfBroken.Plain ∧ Grounded halfBroken kept ∧
      (∀ t ∈ kept, ∀ u ∈ kept, t.path.components <+: u.path.components →
        t.path.components = u.path.components) ∧
      ∀ p, Pool.Steps intoTests (.start halfBroken {} kept) p →
        (∀ q, ¬ Pool.Step intoTests p q) → p.outcomes.map isSkipped = [false, true] := by
  intro kept
  have hground : Grounded halfBroken kept := grounded_halfBroken.dropCollisions
  have habove : ∀ t ∈ kept, ∀ u ∈ kept, t.path.components <+: u.path.components →
      t.path.components = u.path.components := by
    decide +kernel
  refine ⟨plain_halfBroken, hground, habove, ?_⟩
  intro p hsteps hend
  have hagree := interleavings_agree intoTests halfBroken
    (intoTests.targets halfBroken halfBrokenFiles) {} [] plain_halfBroken hground habove
  obtain ⟨_, _, houtcomes⟩ := hagree.2 p hsteps hend
  rw [houtcomes]
  decide +kernel

end Scaffold
