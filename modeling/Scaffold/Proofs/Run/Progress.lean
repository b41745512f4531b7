import Scaffold.Proofs.Disk.Sharing
import Scaffold.Proofs.Run.Frame
import Scaffold.Proofs.Run.Jobs

namespace Scaffold
set_option autoImplicit true

open Disk Generator

section Fate

variable {d : Disk} (G : Ground d) (g : Generator)

def Draft.ending (f : Draft) (t : TestTarget) :
    Except OsError Unit → Except TargetError Outcome × Nat
  | .ok _ => (.ok f.outcome, f.added.length)
  | .error e => (.error (.unwritable t.path e), 0)

/-- What becomes of a target, as the file system at the start has it. -/
def Ends (t : TestTarget) (r : Except TargetError Outcome) (n : Nat) : Prop :=
  match g.planFor d t with
  | .error e => (r, n) = (.error e, 0)
  | .ok p =>
    if p.isSatisfied then (r, n) = (.ok .satisfied, 0)
    else match draft t p with
      | .error e => (r, n) = (.error e, 0)
      | .ok f =>
        if g.settings.dryRun then (r, n) = (.ok f.outcome, f.added.length)
        else ∃ v, G.Saves t.path f.text v ∧ (r, n) = f.ending t v

/-- What a target leaves on the file system: the directories that can be made for it, and its
file. -/
inductive Leaves (t : TestTarget) : Location → Entry → Prop where
  | directory : g.Drafts d t f → g.settings.dryRun = false →
      (G.parent (G.parents t.path)).text.utf8ByteSize ≤ longestPath → ms ≠ [] →
      ms <+: G.parents t.path → d.obstacle? G.base ms = none → l = G.base ++ ms →
      Leaves t l .directory
  | file : g.Drafts d t f → g.settings.dryRun = false → G.Saves t.path f.text (.ok ()) →
      l = G.place t.path → Leaves t l (.file f.text.toUTF8)

variable {G g} {t u : TestTarget}

theorem drafts_unique (h : g.Drafts d t f) (h' : g.Drafts d t f') : f = f' := by
  obtain ⟨p, hplan, _, hdraft⟩ := h
  obtain ⟨p', hplan', _, hdraft'⟩ := h'
  cases hplan.symm.trans hplan'
  cases hdraft.symm.trans hdraft'
  rfl

theorem ends_of_drafts (h : g.Drafts d t f) :
    Ends G g t r n ↔ if g.settings.dryRun then (r, n) = (.ok f.outcome, f.added.length)
      else ∃ v, G.Saves t.path f.text v ∧ (r, n) = f.ending t v := by
  obtain ⟨p, hplan, hopen, hdraft⟩ := h
  simp only [Ends, hplan, hopen, hdraft, Bool.false_eq_true, if_false]

theorem Ends.unique (h : G.Bears t.path) (he : Ends G g t r n) (he' : Ends G g t r' n') :
    r = r' ∧ n = n' := by
  rw [← Prod.mk.injEq]
  cases hplan : g.planFor d t with
  | error e =>
    simp only [Ends, hplan] at he he'
    rw [he, he']
  | ok p =>
    simp only [Ends, hplan] at he he'
    split at he
    · rename_i hsat
      rw [if_pos hsat] at he'
      rw [he, he']
    · rename_i hsat
      rw [if_neg hsat] at he'
      cases hdraft : draft t p with
      | error e =>
        simp only [hdraft] at he he'
        rw [he, he']
      | ok f =>
        simp only [hdraft] at he he'
        split at he
        · rename_i hdry
          rw [if_pos hdry] at he'
          rw [he, he']
        · rename_i hdry
          rw [if_neg hdry] at he'
          obtain ⟨v, hv, heq⟩ := he
          obtain ⟨w, hw, heq'⟩ := he'
          rw [heq, heq', hv.unique h hw]

theorem Leaves.on_way (h : G.Bears t.path) (hl : Leaves G g t l e) : l <+: G.place t.path := by
  cases hl with
  | directory _ _ _ _ hms _ heq =>
    rw [heq]
    exact (h.above hms).1
  | file _ _ _ heq => exact heq ▸ List.prefix_rfl

theorem Leaves.at_place (ht : G.Bears t.path) (hu : G.Bears u.path)
    (hapart : G.place t.path <+: G.place u.path → t = u)
    (hl : Leaves G g u (G.place t.path) e) :
    t = u ∧ ∃ f, g.Drafts d t f ∧ e = .file f.text.toUTF8 := by
  obtain rfl := hapart (hl.on_way hu)
  refine ⟨rfl, ?_⟩
  cases hl with
  | directory _ _ _ _ hms _ heq => exact absurd heq.symm (ht.above hms).2
  | file hdraft _ _ _ => exact ⟨_, hdraft, rfl⟩

/-- Two targets leave the same thing where both leave something. -/
theorem Leaves.unique (ht : G.Bears t.path) (hu : G.Bears u.path)
    (htu : G.place t.path <+: G.place u.path → t = u)
    (hut : G.place u.path <+: G.place t.path → u = t)
    (hl : Leaves G g t l e) (hl' : Leaves G g u l e') : e = e' := by
  have hat : ∀ {t u e e'}, G.Bears t.path → G.Bears u.path →
      (G.place t.path <+: G.place u.path → t = u) → Leaves G g t (G.place t.path) e →
      Leaves G g u (G.place t.path) e' → e = e' := by
    intro t u e e' ht hu htu hl hl'
    obtain ⟨_, f, hdraft, rfl⟩ := hl.at_place ht ht fun _ => rfl
    obtain ⟨_, f', hdraft', rfl⟩ := hl'.at_place ht hu htu
    rw [drafts_unique hdraft hdraft']
  by_cases htp : l = G.place t.path
  · subst htp
    exact hat ht hu htu hl hl'
  · by_cases hup : l = G.place u.path
    · subst hup
      exact (hat hu ht hut hl' hl).symm
    · cases hl with
      | file _ _ _ heq => exact absurd heq htp
      | directory _ _ _ _ _ _ _ =>
        cases hl' with
        | file _ _ _ heq => exact absurd heq hup
        | directory _ _ _ _ _ _ _ => rfl

end Fate

section Validity

variable {d : Disk} (G : Ground d) (g : Generator)

/-- The directories that are to be made for a path once those of some names are there. -/
inductive Later (p : Path) : List String → List (List Component) → Prop where
  | nil : Later p (G.parents p) []
  | cons : Later p (ms ++ [n]) below →
      Later p ms ((G.front ++ (ms ++ [n]).map .name).reverse :: below)

def Sized (p : Path) : Prop :=
  (G.parent (G.parents p)).text.utf8ByteSize ≤ longestPath

def Unfiled (p : Path) : Prop :=
  ∀ ms, ms ≠ [] → ms <+: G.parents p → ∀ c, d.get? (G.base ++ ms) ≠ some (.file c)

def Settled (D : Disk) (t : TestTarget) : Prop :=
  ∀ l e, Leaves G g t l e → D.get? l = some e

structure Underway (D : Disk) (t : TestTarget) (f : Draft) : Prop where
  along : d.Along D (G.place t.path)
  drafts : g.Drafts d t f
  wet : g.settings.dryRun = false

/-- A job is as far as the file system at the start lets it be. -/
def Job.Valid (D : Disk) (t : TestTarget) : Job → Prop
  | .waiting => d.Along D (G.place t.path)
  | .planned p => d.Along D (G.place t.path) ∧ g.planFor d t = .ok p ∧ p.isSatisfied = false
  | .climbing f steps below => Underway G g D t f ∧ ∃ ms,
      steps = (G.front ++ ms.map .name).reverse ∧ Later G t.path ms below ∧
        (below = [] ∨ Sized G t.path ∧ Unfiled G t.path)
  | .descending f below => Underway G g D t f ∧ Sized G t.path ∧ ∃ ms, Later G t.path ms below ∧
      D.get? (G.base ++ ms) = some .directory ∧ d.obstacle? G.base ms = none ∧
        (below = [] ∨ Unfiled G t.path)
  | .written f | .counted f => f.outcome ≠ .satisfied ∧
      Ends G g t (.ok f.outcome) f.added.length ∧ Settled G g D t
  | .finished r n => Ends G g t r n ∧ Settled G g D t

def Touches (t : TestTarget) (D D' : Disk) : Prop :=
  D' = D ∨ ∃ l e, Leaves G g t l e ∧ l ≠ [] ∧ D' = D.put l e ∧ D.Keeps D' ∧
    (e = .directory → D.get? l = none)

variable {G g} {D D' : Disk} {t u : TestTarget}

theorem Later.isPrefix {below : List (List Component)} (h : Later G p ms below) :
    ms <+: G.parents p := by
  induction h with
  | nil => exact List.prefix_rfl
  | cons _ ih => exact (List.prefix_append _ _).trans ih

theorem Later.eq_of_nil (h : Later G p ms []) : ms = G.parents p := by
  cases h
  rfl

theorem Touches.keeps (hD : D.Plain) (h : Touches G g t D D') : D.Keeps D' := by
  rcases h with rfl | ⟨l, e, _, _, _, hkeeps, _⟩
  · exact hD.keeps
  · exact hkeeps

section Stable

variable (ht : G.Bears t.path) (htu : G.place t.path <+: G.place u.path → t = u)
  (hut : G.place u.path <+: G.place t.path → u = t)
include ht htu hut

theorem Touches.along (hne : t ≠ u) (h : Touches G g t D D')
    (halong : d.Along D (G.place u.path)) : d.Along D' (G.place u.path) := by
  rcases h with rfl | ⟨l, e, hl, hnil, rfl, hkeeps, hfree⟩
  · exact halong
  · apply halong.put hkeeps hnil
    cases hl with
    | directory _ _ _ _ hms _ heq =>
      refine .inr ⟨?_, hfree rfl, rfl⟩
      rintro rfl
      exact hne (hut (heq ▸ (ht.above hms).1)).symm
    | file _ _ _ heq => exact .inl fun hpre => hne (htu (heq ▸ hpre))

variable (hu : G.Bears u.path)
include hu

theorem Touches.settled (h : Touches G g t D D') (hsettled : Settled G g D u) :
    Settled G g D' u := by
  rcases h with rfl | ⟨l, e, hl, hnil, rfl, _, _⟩
  · exact hsettled
  · intro m e' hm
    rw [get?_put hnil]
    split
    · rename_i hml
      subst hml
      rw [hl.unique ht hu htu hut hm]
    · exact hsettled m e' hm

/-- What another job does leaves a job where it is. -/
theorem Touches.valid (hne : t ≠ u) (hD : D.Plain) (h : Touches G g t D D')
    (hv : Job.Valid G g D u j) : Job.Valid G g D' u j := by
  have halong := h.along ht htu hut hne
  have hsettled := h.settled ht htu hut hu
  cases j with
  | waiting => exact halong hv
  | planned p => exact ⟨halong hv.1, hv.2⟩
  | climbing f steps below => exact ⟨⟨halong hv.1.along, hv.1.drafts, hv.1.wet⟩, hv.2⟩
  | descending f below =>
    obtain ⟨hunder, hsized, ms, hlater, hdir, hrest⟩ := hv
    exact ⟨⟨halong hunder.along, hunder.drafts, hunder.wet⟩, hsized, ms, hlater,
      (h.keeps hD).directories _ hdir, hrest⟩
  | written f => exact ⟨hv.1, hv.2.1, hsettled hv.2.2⟩
  | counted f => exact ⟨hv.1, hv.2.1, hsettled hv.2.2⟩
  | finished r n => exact ⟨hv.1, hsettled hv.2⟩

end Stable

theorem settled_of_not_drafts (hno : ∀ f, ¬ g.Drafts d t f) : Settled G g D t := by
  intro l e hl
  cases hl with
  | directory hdraft _ _ _ _ _ _ => exact absurd hdraft (hno _)
  | file hdraft _ _ _ => exact absurd hdraft (hno _)

theorem settled_of_dry (hdry : g.settings.dryRun = true) : Settled G g D t := by
  intro l e hl
  cases hl with
  | directory _ hwet _ _ _ _ _ => cases hdry.symm.trans hwet
  | file _ hwet _ _ => cases hdry.symm.trans hwet

theorem Underway.ends (hunder : Underway G g D t f) (hv : G.Saves t.path f.text v) :
    Ends G g t (f.ending t v).1 (f.ending t v).2 := by
  rw [ends_of_drafts hunder.drafts, hunder.wet, if_neg (by decide)]
  exact ⟨v, hv, rfl⟩

theorem Underway.settled_of_error (h : G.Bears t.path) (hunder : Underway G g D t f)
    (hv : G.Saves t.path f.text (.error e))
    (hdirs : Sized G t.path → ∀ ms, ms <+: G.parents t.path → d.obstacle? G.base ms = none →
      D.get? (G.base ++ ms) = some .directory) : Settled G g D t := by
  intro l e hl
  cases hl with
  | directory _ _ hsized _ hms hnone heq =>
    rw [heq]
    exact hdirs hsized _ hms hnone
  | file hdraft _ hsaved _ =>
    rw [drafts_unique hdraft hunder.drafts] at hsaved
    cases hsaved.unique h hv

theorem Sized.parent_le (hsized : Sized G p) (hms : ms <+: G.parents p) :
    (G.parent ms).text.utf8ByteSize ≤ longestPath := by
  refine (Path.size_ofComponents_le ?_).trans hsized
  exact (List.prefix_append_right_inj _).mpr (hms.map _)

theorem Sized.refusal?_eq (hsized : Sized G p) :
    G.refusal? p = d.obstacle? G.base (G.parents p) := by
  rw [Ground.refusal?, if_neg (Nat.not_lt.mpr hsized)]

theorem sized_of_nil (hnil : G.parents p = []) : Sized G p := by
  rw [Sized, hnil, Ground.parent, List.map_nil, List.append_nil]
  by_cases hfront : G.front = []
  · rw [hfront]
    exact Nat.zero_le _
  · have hfind := Ground.find_front hfront
    rw [find_eq_reach G.plain (text_ne_empty_of_find hfind)] at hfind
    split at hfind
    · cases hfind
    · rename_i hsize
      exact Nat.not_lt.mp hsize

section Attempt

variable {f : Draft} {below : List (List Component)} (h : G.Bears t.path)
  (hunder : Underway G g D t f) (hsized : Sized G t.path) (hlater : Later G t.path ms below)
  (hfile : below = [] ∨ Unfiled G t.path)
include h hunder hsized hlater hfile

theorem valid_of_stands (hdir : D.get? (G.base ++ ms) = some .directory)
    (hnone : D.obstacle? G.base ms = none) : Job.Valid G g D t (.descending f below) := by
  rw [Ground.obstacle?_along h hunder.along hlater.isPrefix] at hnone
  exact ⟨hunder, hsized, ms, hlater, hdir, hnone, hfile⟩

theorem valid_of_made (hfree : D.get? (G.base ++ ms) = none)
    (hparent : D.get? (G.base ++ ms).dropLast = some .directory)
    (hnone : D.obstacle? G.base ms = none) :
    Touches G g t D (D.put (G.base ++ ms) .directory) ∧
      Job.Valid G g (D.put (G.base ++ ms) .directory) t (.descending f below) := by
  have hms := hlater.isPrefix
  rw [Ground.obstacle?_along h hunder.along hms] at hnone
  have hnil : ms ≠ [] := by
    rintro rfl
    rw [List.append_nil, Ground.base_directory h hunder.along.keeps] at hfree
    cases hfree
  have hne : G.base ++ ms ≠ [] := by simp [hnil]
  have hkeeps := (hunder.along.keeps.plain.widens_put hfree hparent).keeps
  refine ⟨.inr ⟨_, _, ?_, hne, rfl, hkeeps, fun _ => hfree⟩, ?_⟩
  · exact .directory hunder.drafts hunder.wet hsized hnil hms hnone rfl
  · refine ⟨⟨?_, hunder.drafts, hunder.wet⟩, hsized, ms, hlater, ?_, hnone, hfile⟩
    · exact hunder.along.put hkeeps hne (.inr ⟨(h.above hms).2, hfree, rfl⟩)
    · rw [get?_put hne, if_pos rfl]

theorem valid_of_refused (hobst : D.obstacle? G.base ms = some e)
    (hclear : ∀ ks, ks <+: ms → D.obstacle? G.base ks = none →
      D.get? (G.base ++ ks) = some .directory) :
    Job.Valid G g D t (.unwritable t e) := by
  have hms := hlater.isPrefix
  have hsame : ∀ ks, ks <+: G.parents t.path → D.obstacle? G.base ks = d.obstacle? G.base ks :=
    fun ks hks => Ground.obstacle?_along h hunder.along hks
  rw [hsame ms hms] at hobst
  -- Beyond the first attempt no file is on the way, so that the obstacle is the same for all.
  have hrefusal : G.refusal? t.path = some e := by
    rw [hsized.refusal?_eq]
    rcases hfile with rfl | hunfiled
    · rwa [← hlater.eq_of_nil]
    · obtain ⟨rfl, hall⟩ := obstacle?_of_no_file hunfiled hms hobst
      exact hall
  have hsaves : G.Saves t.path f.text (.error e) := .refused hrefusal
  refine ⟨hunder.ends hsaves, hunder.settled_of_error h hsaves ?_⟩
  intro _ ks hks hnone
  rcases List.prefix_or_prefix_of_prefix hks hms with hle | hle
  · exact hclear ks hle (hsame ks hks ▸ hnone)
  · cases (obstacle?_of_isPrefix hnone hle).symm.trans hobst

theorem valid_of_missing (hsteps : c :: cs = (G.front ++ ms.map Component.name).reverse)
    (hnone : D.get? (G.base ++ ms.dropLast) = none)
    (hway : ∀ ks, ks ≠ [] → ks <+: ms → ∀ content,
      D.get? (G.base ++ ks) ≠ some (.file content)) :
    Job.Valid G g D t (.climbing f cs ((c :: cs) :: below)) := by
  have hnil : ms ≠ [] := by
    rintro rfl
    rw [List.dropLast_nil, List.append_nil, Ground.base_directory h hunder.along.keeps] at hnone
    cases hnone
  have hunfiled : Unfiled G t.path := by
    rcases hfile with rfl | hunfiled
    · obtain rfl := hlater.eq_of_nil
      intro ks hks hpre content hget
      exact hway ks hks hpre content
        ((hunder.along.sameFile (h.above hpre).1 content).mpr hget)
    · exact hunfiled
  obtain ⟨ks, n, rfl⟩ := (List.eq_nil_or_concat' ms).resolve_left hnil
  have hcs : cs = (G.front ++ ks.map Component.name).reverse := by
    rw [List.map_append, ← List.append_assoc, List.map_singleton, List.reverse_concat] at hsteps
    exact (List.cons.inj hsteps).2
  refine ⟨hunder, ks, hcs, ?_, .inr ⟨hsized, hunfiled⟩⟩
  rw [hsteps]
  exact .cons hlater

end Attempt

theorem valid_of_long (h : G.Bears t.path) (hunder : Underway G g D t f)
    (hlong : ¬ Sized G t.path) : Job.Valid G g D t (.unwritable t .nameTooLong) := by
  have hsaves : G.Saves t.path f.text (.error .nameTooLong) :=
    .refused (if_pos (Nat.not_le.mp hlong))
  exact ⟨hunder.ends hsaves,
    hunder.settled_of_error h hsaves fun hsized => absurd hsized hlong⟩

section Step

variable {s : Summary} {f : Draft} {p : TestPlan} {below : List (List Component)}
  {steps : List Component} (h : G.Bears t.path)
include h

def Job.Proceeds (G : Ground d) (g : Generator) (t : TestTarget) (D : Disk) (x : Shared × Job) :
    Prop :=
  Touches G g t D x.1.disk ∧ Job.Valid G g x.1.disk t x.2

theorem proceeds_waiting (hv : Job.Valid G g D t .waiting) :
    Job.Proceeds G g t D (Job.waiting.next g t ⟨D, s⟩) := by
  have halong : d.Along D (G.place t.path) := hv
  have hplan : g.planFor D t = g.planFor d t :=
    planFor_congr h G.plain.keeps halong.keeps (halong.sameFile List.prefix_rfl)
  rw [Job.next, hplan]
  cases hp : g.planFor d t with
  | error e =>
    refine ⟨.inl rfl, by simp [Ends, hp], settled_of_not_drafts ?_⟩
    rintro f ⟨p, hplan', _⟩
    cases hp.symm.trans hplan'
  | ok p =>
    refine ⟨.inl rfl, ?_⟩
    by_cases hsat : p.isSatisfied = true
    · simp only [hsat, if_true]
      refine ⟨by simp [Ends, hp, hsat], settled_of_not_drafts ?_⟩
      rintro f ⟨p', hplan', hopen, _⟩
      cases hp.symm.trans hplan'
      cases hopen.symm.trans hsat
    · simp only [hsat]
      exact ⟨halong, hp, by simpa using hsat⟩

theorem proceeds_planned (hv : Job.Valid G g D t (.planned p)) :
    Job.Proceeds G g t D ((Job.planned p).next g t ⟨D, s⟩) := by
  obtain ⟨halong, hplan, hopen⟩ := hv
  rw [Job.next]
  cases hdraft : draft t p with
  | error e =>
    refine ⟨.inl rfl, by simp [Ends, hplan, hopen, hdraft], settled_of_not_drafts ?_⟩
    rintro f ⟨p', hplan', _, hdraft'⟩
    cases hplan.symm.trans hplan'
    cases hdraft.symm.trans hdraft'
  | ok f =>
    have hdrafts : g.Drafts d t f := ⟨p, hplan, hopen, hdraft⟩
    refine ⟨.inl rfl, ?_⟩
    by_cases hdry : g.settings.dryRun = true
    · simp only [hdry, if_true]
      refine ⟨outcome_ne_satisfied hdraft, ?_, settled_of_dry hdry⟩
      rw [ends_of_drafts hdrafts, if_pos hdry]
    · simp only [hdry]
      refine ⟨⟨halong, hdrafts, by simpa using hdry⟩, G.parents t.path, ?_, .nil, .inl rfl⟩
      rw [h.parentComponents]
      rfl

theorem makeDirectory_of_long (hkeeps : d.Keeps D) (hms : ms <+: G.parents t.path)
    (hne : ms ≠ []) (hlong : longestPath < (G.parent ms).text.utf8ByteSize) :
    D.makeDirectory (G.parent ms) = .error .nameTooLong ∧
      D.isDirectory (G.parent ms) = false := by
  have hfind : ∀ follow, D.find (G.parent ms) follow = .error .nameTooLong := by
    intro follow
    rw [Ground.find_parent h (Ground.parent_isPrefix hms) hne hkeeps, if_pos hlong]
  exact ⟨by simp [makeDirectory, hfind], by simp [isDirectory, lookUp?, hfind]⟩

theorem proceeds_attempt (hunder : Underway G g D t f) (hsized : Sized G t.path)
    (hlater : Later G t.path ms below) (hfile : below = [] ∨ Unfiled G t.path)
    (hsteps : c :: cs = (G.front ++ ms.map Component.name).reverse) :
    Job.Proceeds G g t D ((Job.climbing f (c :: cs) below).next g t ⟨D, s⟩) := by
  have hms := hlater.isPrefix
  have hp : Path.ofComponents (c :: cs).reverse = G.parent ms := by
    rw [hsteps, List.reverse_reverse]
    rfl
  have hne : G.front ≠ [] ∨ ms ≠ [] := by
    by_contra hnil
    simp only [not_or, not_not] at hnil
    rw [hnil.1, hnil.2] at hsteps
    cases hsteps
  cases Ground.making h hunder.along.keeps (Ground.parent_isPrefix hms) hne
      (hsized.parent_le hms) with
  | made hmake hfree hparent hnone =>
    rw [Job.next_climbing_of_ok (hp ▸ hmake)]
    exact valid_of_made h hunder hsized hlater hfile hfree hparent hnone
  | stands hmake hdirectory hdir hnone =>
    rw [Job.next_climbing_of_error (hp ▸ hmake) (by decide), hp, if_pos hdirectory]
    exact ⟨.inl rfl, valid_of_stands h hunder hsized hlater hfile hdir hnone⟩
  | missing hmake hnone hway =>
    rw [Job.next_climbing_of_missing (hp ▸ hmake)]
    exact ⟨.inl rfl, valid_of_missing h hunder hsized hlater hfile hsteps hnone hway⟩
  | refused hmake hne' hdirectory hobst hclear =>
    rw [Job.next_climbing_of_error (hp ▸ hmake) hne', hp, if_neg (by simp [hdirectory])]
    exact ⟨.inl rfl, valid_of_refused h hunder hsized hlater hfile hobst hclear⟩

theorem proceeds_climbing (hv : Job.Valid G g D t (.climbing f steps below)) :
    Job.Proceeds G g t D ((Job.climbing f steps below).next g t ⟨D, s⟩) := by
  obtain ⟨hunder, ms, hsteps, hlater, hfile⟩ := hv
  have hkeeps := hunder.along.keeps
  have hfile' : below = [] ∨ Unfiled G t.path := hfile.imp_right (·.2)
  cases steps with
  | nil =>
    obtain ⟨rfl, _⟩ : ms = [] ∧ G.front = [] := by simpa using hsteps
    have hsized : Sized G t.path := by
      rcases hfile with rfl | ⟨hsized, _⟩
      · exact sized_of_nil hlater.eq_of_nil.symm
      · exact hsized
    have hbase : D.get? (G.base ++ []) = some .directory := by
      rw [List.append_nil]
      exact Ground.base_directory h hkeeps
    exact ⟨.inl rfl, valid_of_stands h hunder hsized hlater hfile' hbase rfl⟩
  | cons c cs =>
    by_cases hsized : Sized G t.path
    · exact proceeds_attempt h hunder hsized hlater hfile' hsteps
    · -- Only the first attempt can meet a path that is too long.
      obtain rfl : below = [] := hfile.resolve_right fun hboth => hsized hboth.1
      obtain rfl := hlater.eq_of_nil
      have hp : Path.ofComponents (c :: cs).reverse = G.parent (G.parents t.path) := by
        rw [hsteps, List.reverse_reverse]
        rfl
      have hnil : G.parents t.path ≠ [] := fun hnil => hsized (sized_of_nil hnil)
      obtain ⟨hmake, hdirectory⟩ :=
        makeDirectory_of_long h hkeeps List.prefix_rfl hnil (Nat.not_le.mp hsized)
      rw [Job.next_climbing_of_error (hp ▸ hmake) (by decide), hp, if_neg (by simp [hdirectory])]
      exact ⟨.inl rfl, valid_of_long h hunder hsized⟩

theorem proceeds_writing (hunder : Underway G g D t f) (hsized : Sized G t.path)
    (hdir : D.get? (G.base ++ G.parents t.path) = some .directory)
    (hnone : d.obstacle? G.base (G.parents t.path) = none) :
    Job.Proceeds G g t D ((Job.descending f []).next g t ⟨D, s⟩) := by
  have hD := hunder.along.keeps.plain
  have hsaves : G.Saves t.path f.text ((D.writeText t.path f.text).map fun _ => ()) :=
    .decided (hsized.refusal?_eq.trans hnone) hunder.along hdir
  have hdirs : ∀ ms, ms <+: G.parents t.path → D.get? (G.base ++ ms) = some .directory :=
    fun ms hms => Ground.directory_of_isPrefix hD hdir hms
  rw [Job.next]
  cases hwritten : D.writeText t.path f.text with
  | error e =>
    rw [hwritten] at hsaves
    exact ⟨.inl rfl, hunder.ends hsaves,
      hunder.settled_of_error h hsaves fun _ ms hms _ => hdirs ms hms⟩
  | ok D' =>
    rw [hwritten] at hsaves
    obtain ⟨spot, hfind, hplace, hparent, rfl⟩ := writeText_eq_ok hD hwritten
    obtain ⟨hat, _⟩ := Ground.find_ok h hunder.along.keeps hfind
    rw [hat] at hplace hparent ⊢
    have hne : G.place t.path ≠ [] := by
      intro hnil
      rw [hnil] at hplace
      exact hplace rfl
    have hkeeps := hD.keeps_put hparent hplace f.text.toUTF8
    refine ⟨.inr ⟨_, _, .file hunder.drafts hunder.wet hsaves rfl, hne, rfl, hkeeps, by simp⟩, ?_⟩
    refine ⟨?_, hunder.ends hsaves, ?_⟩
    · obtain ⟨p, _, _, hdraft⟩ := hunder.drafts
      exact outcome_ne_satisfied hdraft
    · intro l e hl
      cases hl with
      | directory _ _ _ _ hms _ heq =>
        rw [heq]
        exact hkeeps.directories _ (hdirs _ hms)
      | file hdraft _ _ heq =>
        rw [heq, get?_put hne, if_pos rfl, drafts_unique hdraft hunder.drafts]

theorem proceeds_descending (hv : Job.Valid G g D t (.descending f below)) :
    Job.Proceeds G g t D ((Job.descending f below).next g t ⟨D, s⟩) := by
  obtain ⟨hunder, hsized, ms, hlater, hdir, hnone, hfile⟩ := hv
  cases hlater with
  | nil => exact proceeds_writing h hunder hsized hdir hnone
  | @cons _ n below hlater =>
    have hfile' : below = [] ∨ Unfiled G t.path := .inr (hfile.resolve_left (List.cons_ne_nil _ _))
    have hms := hlater.isPrefix
    have hp : Path.ofComponents (G.front ++ (ms ++ [n]).map Component.name).reverse.reverse =
        G.parent (ms ++ [n]) := by
      rw [List.reverse_reverse]
      rfl
    cases Ground.making h hunder.along.keeps (Ground.parent_isPrefix hms) (.inr (by simp))
        (hsized.parent_le hms) with
    | made hmake hfree hparent hnone =>
      rw [Job.next_descending_of_ok (hp ▸ hmake)]
      exact valid_of_made h hunder hsized hlater hfile' hfree hparent hnone
    | stands hmake hdirectory hdir hnone =>
      rw [Job.next_descending_of_error (hp ▸ hmake), hp, if_pos hdirectory]
      exact ⟨.inl rfl, valid_of_stands h hunder hsized hlater hfile' hdir hnone⟩
    | missing _ hmissing _ =>
      rw [List.dropLast_concat, hdir] at hmissing
      cases hmissing
    | refused hmake _ hdirectory hobst hclear =>
      rw [Job.next_descending_of_error (hp ▸ hmake), hp, if_neg (by simp [hdirectory])]
      exact ⟨.inl rfl, valid_of_refused h hunder hsized hlater hfile' hobst hclear⟩

theorem proceeds_next (hj : j.isFinished = false) (hv : Job.Valid G g D t j) :
    Job.Proceeds G g t D (j.next g t ⟨D, s⟩) := by
  cases j with
  | waiting => exact proceeds_waiting h hv
  | planned p => exact proceeds_planned h hv
  | climbing f steps below => exact proceeds_climbing h hv
  | descending f below => exact proceeds_descending h hv
  | written f => exact ⟨.inl rfl, hv⟩
  | counted f => exact ⟨.inl rfl, hv.2⟩
  | finished r n => cases hj

end Step

end Validity

end Scaffold
