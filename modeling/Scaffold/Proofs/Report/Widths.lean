import Mathlib.Algebra.GroupWithZero.Nat
import Mathlib.Algebra.Order.BigOperators.Group.List
import Mathlib.Algebra.Order.Group.Nat
import Mathlib.Data.List.Forall2
import Mathlib.Logic.Relation
import Scaffold.Report.Table

namespace Scaffold.Table
set_option autoImplicit true

theorem totalWidth_eq (ws : List Nat) : totalWidth ws = ws.sum + 2 * (ws.length - 1) := by
  rw [totalWidth, ← List.sum_eq_foldl]
  rfl

theorem totalWidth_le (h : ∀ w ∈ ws, w ≤ b) :
    totalWidth ws ≤ ws.length * b + 2 * (ws.length - 1) := by
  rw [totalWidth_eq]
  exact Nat.add_le_add_right (List.sum_le_card_nsmul ws b h) _

/-- The widest column that may still get narrower, the last one of several, gives up one
character. -/
inductive Narrows : List Nat → List Nat → Prop where
  | intro (hspare : leastWidth < w) (hfront : ∀ v ∈ front, v ≤ w) (hback : ∀ v ∈ back, v < w) :
      Narrows (front ++ w :: back) (front ++ (w - 1) :: back)

/-- One round of the search for widths that fit a limit. -/
def Round (limit : Nat) (ws vs : List Nat) : Prop :=
  limit < totalWidth ws ∧ Narrows ws vs

def capped (ws : List Nat) : List Nat :=
  ws.map (min leastWidth)

/-- Columns cut at a level: those that are no wider stay, the others end there or one above. -/
def CutAt (level : Nat) : List Nat → List Nat → Prop :=
  List.Forall₂ fun w v => (w ≤ level → v = w) ∧ (level < w → v = level ∨ v = level + 1)

section Step

variable {ws vs : List Nat}

theorem le_widest {w : Nat} (hfront : ∀ v ∈ front, v ≤ w) (hback : ∀ v ∈ back, v < w) :
    ∀ v ∈ front ++ w :: back, v ≤ w := by
  simp only [List.mem_append, List.mem_cons]
  rintro v (hv | rfl | hv)
  · exact hfront v hv
  · exact Nat.le_refl v
  · exact Nat.le_of_lt (hback v hv)

theorem exists_widest (hw : w ∈ ws) : ∃ front m back, ws = front ++ m :: back ∧ w ≤ m ∧
    (∀ v ∈ front, v ≤ m) ∧ ∀ v ∈ back, v < m := by
  induction ws generalizing w with
  | nil => cases hw
  | cons u ws ih =>
    cases ws with
    | nil =>
      obtain rfl := List.mem_singleton.mp hw
      exact ⟨[], w, [], rfl, Nat.le_refl w, nofun, nofun⟩
    | cons v ws =>
      obtain ⟨front, m, back, hws, _, hfront, hback⟩ := ih List.mem_cons_self
      have hle : ∀ x ∈ v :: ws, x ≤ m := hws ▸ le_widest hfront hback
      rcases Nat.lt_or_ge m u with hu | hu
      · refine ⟨[], u, v :: ws, rfl, ?_, nofun, fun x hx => Nat.lt_of_le_of_lt (hle x hx) hu⟩
        rcases List.mem_cons.mp hw with rfl | hw
        · exact Nat.le_refl w
        · exact Nat.le_of_lt (Nat.lt_of_le_of_lt (hle w hw) hu)
      · refine ⟨u :: front, m, back, by rw [hws]; rfl, ?_, List.forall_mem_cons.mpr ⟨hu, hfront⟩,
          hback⟩
        rcases List.mem_cons.mp hw with rfl | hw
        · exact hu
        · exact hle w hw

theorem foldl_max_eq (hfront : ∀ v ∈ front, v ≤ w) (hback : ∀ v ∈ back, v < w) :
    (front ++ w :: back).foldl max 0 = w := by
  have hmax : (front ++ w :: back).max? = some w :=
    List.max?_eq_some_iff.mpr ⟨by simp, le_widest hfront hback⟩
  rw [List.foldl_max, hmax, Option.getD_some, Nat.zero_max]

theorem lowerLast_append (h : w ∉ back) :
    lowerLast w (front ++ w :: back) = front ++ (w - 1) :: back := by
  induction front with
  | nil => simp [lowerLast, h]
  | cons v front ih => simp [lowerLast, ih]

theorem shrinkWidest_of_narrows (h : Narrows ws vs) : shrinkWidest ws = vs := by
  cases h with
  | intro hspare hfront hback =>
    rw [shrinkWidest, foldl_max_eq hfront hback, if_pos hspare,
      lowerLast_append fun h => Nat.lt_irrefl _ (hback _ h)]

theorem narrows_shrinkWidest (hw : w ∈ ws) (h : leastWidth < w) : Narrows ws (shrinkWidest ws) := by
  obtain ⟨front, m, back, rfl, hm, hfront, hback⟩ := exists_widest hw
  have hn : Narrows (front ++ m :: back) (front ++ (m - 1) :: back) :=
    .intro (Nat.lt_of_lt_of_le h hm) hfront hback
  rw [shrinkWidest_of_narrows hn]
  exact hn

theorem shrinkWidest_of_least (h : ∀ w ∈ ws, w ≤ leastWidth) : shrinkWidest ws = ws := by
  rw [shrinkWidest, if_neg]
  rw [Nat.not_lt]
  cases ws with
  | nil => exact Nat.zero_le _
  | cons w ws =>
    obtain ⟨front, m, back, hws, _, hfront, hback⟩ := exists_widest List.mem_cons_self
    rw [hws, foldl_max_eq hfront hback]
    exact h m (by simp [hws])

theorem Narrows.totalWidth (h : Narrows ws vs) : totalWidth ws = totalWidth vs + 1 := by
  cases h with
  | @intro w front back hspare hfront hback =>
    simp only [totalWidth_eq, List.sum_append, List.sum_cons, List.length_append,
      List.length_cons]
    omega

theorem Narrows.capped (h : Narrows ws vs) : capped vs = capped ws := by
  cases h with
  | @intro w front back hspare hfront hback =>
    have hw : min leastWidth (w - 1) = min leastWidth w := by omega
    simp only [Table.capped, List.map_append, List.map_cons, hw]

theorem totalWidth_capped_le (ws : List Nat) : totalWidth (capped ws) ≤ totalWidth ws := by
  have hsum : (capped ws).sum ≤ ws.sum := by
    have hle := List.sum_le_sum (l := ws) (f := min leastWidth) (g := id)
      fun w _ => Nat.min_le_right leastWidth w
    rwa [List.map_id] at hle
  rw [totalWidth_eq, totalWidth_eq, capped, List.length_map]
  exact Nat.add_le_add_right hsum _

/-- Rounds end: each makes the table narrower by one character. -/
theorem wellFounded_round (limit : Nat) : WellFounded fun vs ws => Round limit ws vs := by
  refine Subrelation.wf ?_ (measure totalWidth).wf
  intro vs ws h
  have htotal := h.2.totalWidth
  change totalWidth vs < totalWidth ws
  omega

theorem capped_of_least (h : ∀ w ∈ ws, w ≤ leastWidth) : capped ws = ws := by
  rw [capped]
  conv_rhs => rw [← List.map_id ws]
  exact List.map_congr_left fun w hw => Nat.min_eq_right (h w hw)

theorem totalWidth_lt_of_spare (hw : w ∈ ws) (h : leastWidth < w) :
    totalWidth (capped ws) < totalWidth ws := by
  have hn := narrows_shrinkWidest hw h
  have hle := totalWidth_capped_le (shrinkWidest ws)
  rw [hn.capped] at hle
  rw [hn.totalWidth]
  exact Nat.lt_succ_of_le hle

end Step

section Cut

variable {ws vs us : List Nat}

theorem forall₂_change (h : List.Forall₂ R ws (front ++ w :: back)) (hw : ∀ u, R u w → R u v) :
    List.Forall₂ R ws (front ++ v :: back) := by
  induction front generalizing ws with
  | nil =>
    cases h with
    | cons hu hback => exact .cons (hw _ hu) hback
  | cons u front ih =>
    cases h with
    | cons hu h => exact .cons hu (ih h)

theorem CutAt.forall_mem (h : CutAt level ws vs) (hle : ∀ v ∈ vs, v ≤ w) :
    List.Forall₂ (fun u v => v ≤ w ∧ (u ≤ level → v = u) ∧
      (level < u → v = level ∨ v = level + 1)) ws vs :=
  .flip ((List.forall₂_and_left vs ws).mpr ⟨hle, .flip h⟩)

theorem CutAt.le (h : CutAt level ws vs) : ∀ v ∈ vs, v ≤ level + 1 := by
  induction h with
  | nil => nofun
  | cons hw _ ih =>
    obtain ⟨hstay, hcut⟩ := hw
    exact List.forall_mem_cons.mpr ⟨by omega, ih⟩

/-- A cut leaves the columns also cut just below the widest of them. -/
theorem CutAt.lower (h : CutAt level ws vs) (hw : w ∈ vs) (hle : ∀ v ∈ vs, v ≤ w) :
    CutAt (w - 1) ws vs := by
  have hwidest := h.le w hw
  refine (h.forall_mem hle).imp ?_
  rintro u v ⟨hv, hstay, hcut⟩
  omega

theorem CutAt.narrows (h : CutAt level ws vs) (hn : Narrows vs us) :
    ∃ level', leastWidth ≤ level' ∧ CutAt level' ws us := by
  cases hn with
  | @intro w front back hspare hfront hback =>
    refine ⟨w - 1, Nat.le_sub_one_of_lt hspare, ?_⟩
    refine forall₂_change (h.lower (by simp) (le_widest hfront hback)) ?_
    rintro u ⟨hstay, hcut⟩
    omega

theorem cutAt_self (h : ∀ w ∈ ws, w ≤ level) : CutAt level ws ws := by
  refine List.forall₂_same.mpr fun w hw => ⟨fun _ => rfl, fun hlevel => ?_⟩
  exact absurd hlevel (Nat.not_lt.mpr (h w hw))

theorem shrinkWidest_cases (ws : List Nat) : Narrows ws (shrinkWidest ws) ∨
    (∀ w ∈ ws, w ≤ leastWidth) ∧ shrinkWidest ws = ws := by
  by_cases h : ∃ w ∈ ws, leastWidth < w
  · obtain ⟨w, hw, hspare⟩ := h
    exact .inl (narrows_shrinkWidest hw hspare)
  · have hleast : ∀ w ∈ ws, w ≤ leastWidth := fun w hw => Nat.not_lt.mp fun hlt => h ⟨w, hw, hlt⟩
    exact .inr ⟨hleast, shrinkWidest_of_least hleast⟩

/-- However often the widest column has become narrower, the columns are cut at some level. -/
theorem exists_cutAt_repeat (n : Nat) (ws : List Nat) :
    ∃ level, leastWidth ≤ level ∧ CutAt level ws (Nat.repeat shrinkWidest n ws) := by
  induction n with
  | zero =>
    refine ⟨max leastWidth (ws.foldl max 0), Nat.le_max_left _ _, cutAt_self fun w hw => ?_⟩
    obtain ⟨front, m, back, rfl, hle, hfront, hback⟩ := exists_widest hw
    rw [foldl_max_eq hfront hback]
    exact Nat.le_trans hle (Nat.le_max_right _ _)
  | succ n ih =>
    obtain ⟨level, hlevel, hcut⟩ := ih
    rw [Nat.repeat]
    rcases shrinkWidest_cases (Nat.repeat shrinkWidest n ws) with hn | ⟨_, hsame⟩
    · exact hcut.narrows hn
    · rw [hsame]
      exact ⟨level, hlevel, hcut⟩

theorem exists_cutAt_fitWidths (limit : Option Nat) (ws : List Nat) :
    ∃ level, leastWidth ≤ level ∧ CutAt level ws (fitWidths limit ws) := by
  cases limit with
  | none => exact exists_cutAt_repeat 0 ws
  | some limit => exact exists_cutAt_repeat _ ws

theorem capped_shrinkWidest (ws : List Nat) : capped (shrinkWidest ws) = capped ws := by
  rcases shrinkWidest_cases ws with hn | ⟨_, hsame⟩
  · exact hn.capped
  · rw [hsame]

theorem capped_repeat (n : Nat) (ws : List Nat) :
    capped (Nat.repeat shrinkWidest n ws) = capped ws := by
  induction n with
  | zero => rfl
  | succ n ih => rw [Nat.repeat, capped_shrinkWidest, ih]

theorem capped_shrinkTo (limit : Nat) (ws : List Nat) : capped (shrinkTo limit ws) = capped ws :=
  capped_repeat _ ws

theorem totalWidth_shrinkWidest (ws : List Nat) :
    totalWidth (shrinkWidest ws) = max (totalWidth ws - 1) (totalWidth (capped ws)) := by
  rcases shrinkWidest_cases ws with hn | ⟨hleast, hsame⟩
  · have hle := totalWidth_capped_le (shrinkWidest ws)
    rw [hn.capped] at hle
    have htotal := hn.totalWidth
    omega
  · rw [hsame, capped_of_least hleast]
    omega

theorem totalWidth_repeat (n : Nat) (ws : List Nat) :
    totalWidth (Nat.repeat shrinkWidest n ws) =
      max (totalWidth ws - n) (totalWidth (capped ws)) := by
  induction n with
  | zero => exact (Nat.max_eq_left (totalWidth_capped_le ws)).symm
  | succ n ih =>
    rw [Nat.repeat, totalWidth_shrinkWidest, ih, capped_repeat]
    omega

/-- A table that has to be narrower becomes as wide as allowed, unless its columns do not let it. -/
theorem totalWidth_shrinkTo (limit : Nat) (ws : List Nat) :
    totalWidth (shrinkTo limit ws) =
      max (min (totalWidth ws) limit) (totalWidth (capped ws)) := by
  rw [shrinkTo, totalWidth_repeat]
  omega

end Cut

section Rounds

variable {ws vs us : List Nat}

theorem Round.eq_shrinkWidest (h : Round limit ws vs) : vs = shrinkWidest ws :=
  (shrinkWidest_of_narrows h.2).symm

theorem rounds_repeat (hn : n ≤ totalWidth ws - limit) :
    Relation.ReflTransGen (Round limit) ws (Nat.repeat shrinkWidest n ws) := by
  induction n with
  | zero => exact .refl
  | succ n ih =>
    have hrun := ih (Nat.le_of_succ_le hn)
    rw [Nat.repeat]
    rcases shrinkWidest_cases (Nat.repeat shrinkWidest n ws) with hnarrow | ⟨_, hsame⟩
    · refine hrun.tail ⟨?_, hnarrow⟩
      rw [totalWidth_repeat]
      omega
    · rwa [hsame]

theorem not_round_shrinkTo (limit : Nat) (ws vs : List Nat) :
    ¬ Round limit (shrinkTo limit ws) vs := by
  rintro ⟨hlimit, hn⟩
  have hle := totalWidth_capped_le vs
  have htotal := hn.totalWidth
  rw [hn.capped, capped_shrinkTo] at hle
  rw [totalWidth_shrinkTo] at hlimit htotal
  omega

theorem rounds_shrinkTo_iff : (Relation.ReflTransGen (Round limit) ws vs ∧
    ∀ us, ¬ Round limit vs us) ↔ vs = shrinkTo limit ws := by
  have hrun : Relation.ReflTransGen (Round limit) ws (shrinkTo limit ws) :=
    rounds_repeat (Nat.le_refl _)
  constructor
  · rintro ⟨hvs, hend⟩
    have hunique : Relator.RightUnique (Round limit) :=
      fun _ _ _ h h' => h.eq_shrinkWidest.trans h'.eq_shrinkWidest.symm
    rcases hvs.total_of_right_unique hunique hrun with h | h
    · rcases h.cases_head with heq | ⟨us, hround, _⟩
      · exact heq
      · exact absurd hround (hend us)
    · rcases h.cases_head with heq | ⟨us, hround, _⟩
      · exact heq.symm
      · exact absurd hround (not_round_shrinkTo limit ws us)
  · rintro rfl
    exact ⟨hrun, not_round_shrinkTo limit ws⟩

theorem shrinkTo_of_fits (h : totalWidth ws ≤ limit) : shrinkTo limit ws = ws := by
  rw [shrinkTo, Nat.sub_eq_zero_of_le h]
  rfl

theorem shrinkTo_eq_capped (h : limit ≤ totalWidth (capped ws)) :
    shrinkTo limit ws = capped ws := by
  have hcapped := capped_shrinkTo limit ws
  have hle := totalWidth_capped_le ws
  have htotal := totalWidth_shrinkTo limit ws
  rw [← hcapped, eq_comm]
  refine capped_of_least fun w hw => Nat.not_lt.mp fun hspare => ?_
  have hlt := totalWidth_lt_of_spare hw hspare
  rw [hcapped] at hlt
  omega

end Rounds

/-- Making columns narrower round by round ends, and always with the same widths. The columns are
then cut at a level that is not below the least width. A table that fits stays as it is, one that
has to be narrower gets exactly as wide as allowed, and where the least widths are still too much,
no column is wider than the least width. -/
theorem widths_cut_at_level (limit : Option Nat) (widths : List Nat) :
    (∃ level, leastWidth ≤ level ∧ CutAt level widths (fitWidths limit widths)) ∧
    (limit = none → fitWidths limit widths = widths) ∧
    ∀ n, limit = some n →
      (WellFounded fun vs ws => Round n ws vs) ∧
      (∀ vs, (Relation.ReflTransGen (Round n) widths vs ∧ ∀ us, ¬ Round n vs us) ↔
        vs = fitWidths limit widths) ∧
      (totalWidth widths ≤ n → fitWidths limit widths = widths) ∧
      (n < totalWidth widths → totalWidth (capped widths) ≤ n →
        totalWidth (fitWidths limit widths) = n) ∧
      (n < totalWidth (capped widths) → fitWidths limit widths = capped widths) := by
  refine ⟨exists_cutAt_fitWidths limit widths, fun h => by rw [h]; rfl, ?_⟩
  rintro n rfl
  refine ⟨wellFounded_round n, fun _ => rounds_shrinkTo_iff, shrinkTo_of_fits, ?_, ?_⟩
  · intro hwide hcapped
    rw [fitWidths, totalWidth_shrinkTo]
    omega
  · intro hcapped
    exact shrinkTo_eq_capped (Nat.le_of_lt hcapped)

/-- Columns of two widths meet on the way, and all but one stop in the end. -/
theorem widths_cut_at_level_meeting :
    let widths := [9, 15, 3, 15]
    (34 < totalWidth widths ∧ totalWidth (capped widths) ≤ 34 ∧
      totalWidth (fitWidths (some 34) widths) = 34) ∧
    (20 < totalWidth (capped widths) ∧ fitWidths (some 20) widths = [6, 6, 3, 6]) ∧
    (totalWidth widths ≤ 48 ∧ fitWidths (some 48) widths = widths) := by
  intro widths
  have hmeet : 34 < totalWidth widths ∧ totalWidth (capped widths) ≤ 34 := by decide
  have hleast : 20 < totalWidth (capped widths) := by decide
  have hfits : totalWidth widths ≤ 48 := by decide
  obtain ⟨_, _, hcut⟩ := widths_cut_at_level (some 34) widths
  obtain ⟨_, _, hcut'⟩ := widths_cut_at_level (some 20) widths
  obtain ⟨_, _, hcut''⟩ := widths_cut_at_level (some 48) widths
  obtain ⟨_, _, _, htotal, _⟩ := hcut 34 rfl
  obtain ⟨_, _, _, _, hcapped⟩ := hcut' 20 rfl
  obtain ⟨_, _, hsame, _, _⟩ := hcut'' 48 rfl
  exact ⟨⟨hmeet.1, hmeet.2, htotal hmeet.1 hmeet.2⟩, ⟨hleast, hcapped hleast⟩, hfits, hsame hfits⟩

end Scaffold.Table
