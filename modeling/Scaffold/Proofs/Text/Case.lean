import Mathlib.Data.List.Basic
import Scaffold.Text.Blank
import Scaffold.Text.Case

namespace Scaffold.Text
set_option autoImplicit true

namespace CaseRun

variable {r s : CaseRun}

def imageFirst (r : CaseRun) : Nat := (r.first + r.shift).toNat

def imageLast (r : CaseRun) : Nat := (r.last + r.shift).toNat

/-- Whether the images of a run have no code point in common with a range. -/
def imageOutside (r : CaseRun) (range : Nat × Nat) : Bool :=
  r.imageLast.blt range.1 || range.2.blt r.imageFirst

/-- Whether the images of one run are not on another: the runs are apart, or both take every other
code point, one the even and the other the odd ones. -/
def imageMisses (r s : CaseRun) : Bool :=
  r.imageOutside (s.first, s.last) ||
    ((r.step.beq 2 || r.first.beq r.last) && s.step.beq 2 && Nat.blt 0 r.imageFirst &&
      ((r.imageFirst + s.first) % 2).beq 1)

theorem map?_eq_some_iff : r.map? n = some k ↔
    (r.first ≤ n ∧ n ≤ r.last ∧ (n - r.first) % r.step = 0) ∧ (n + r.shift).toNat = k := by
  simp [map?]

theorem image_bounds (h : r.map? n = some k) : r.imageFirst ≤ k ∧ k ≤ r.imageLast := by
  obtain ⟨⟨hf, hl, _⟩, rfl⟩ := map?_eq_some_iff.mp h
  rw [imageFirst, imageLast]
  omega

theorem not_mem_of_imageOutside (h : r.imageOutside range = true) (hk : r.map? n = some k) :
    ¬ (range.1 ≤ k ∧ k ≤ range.2) := by
  have hb := image_bounds hk
  simp only [imageOutside, Bool.or_eq_true, Nat.blt_eq] at h
  omega

theorem imageOutside_of_le (h : r.imageOutside range = true) (hf : range.1 ≤ s.first)
    (hl : s.last ≤ range.2) : r.imageOutside (s.first, s.last) = true := by
  simp only [imageOutside, Bool.or_eq_true, Nat.blt_eq] at h ⊢
  omega

/-- An image on a run of even or of odd code points is not on a run of the others. -/
theorem map?_of_imageMisses (h : r.imageMisses s = true) (hk : r.map? n = some k) :
    s.map? k = none := by
  cases hs : s.map? k with
  | none => rfl
  | some l =>
    obtain ⟨⟨hf, hl, hstep⟩, _⟩ := map?_eq_some_iff.mp hs
    rcases Bool.or_eq_true _ _ ▸ h with h | h
    · exact absurd ⟨hf, hl⟩ (not_mem_of_imageOutside h hk)
    · simp only [Bool.and_eq_true, Bool.or_eq_true, Nat.beq_eq, Nat.blt_eq, imageFirst] at h
      obtain ⟨⟨⟨hr, hss⟩, hpos⟩, hpar⟩ := h
      obtain ⟨⟨hrf, hrl, hrs⟩, rfl⟩ := map?_eq_some_iff.mp hk
      rw [hss] at hstep
      rcases hr with hr | hr
      · rw [hr] at hrs
        omega
      · omega

end CaseRun

def imagesOutside (runs : List CaseRun) (sequences : List (Nat × List Nat))
    (ranges : List (Nat × Nat)) : Bool :=
  runs.all (fun r => ranges.all r.imageOutside) &&
    sequences.all fun s => s.2.all fun k => !inIntervals ranges k

theorem imagesOutside_of_cons (h : imagesOutside runs sequences (range :: ranges) = true) :
    imagesOutside runs sequences ranges = true := by
  simp only [imagesOutside, Bool.and_eq_true, List.all_eq_true, List.all_cons, inIntervals,
    List.any_cons, Bool.not_or] at h ⊢
  exact ⟨fun r hr => (h.1 r hr).2, fun s hs k hk => (h.2 s hs k hk).2⟩

theorem mem_mapCase (h : d ∈ mapCase runs sequences c) :
    (∃ r ∈ runs, ∃ k, r.map? c.toNat = some k ∧ d = Char.ofNat k) ∨
    (∃ s ∈ sequences, ∃ k ∈ s.2, d = Char.ofNat k) ∨
    (mapCase runs sequences c = [c] ∧ d = c) := by
  cases hr : runs.findSome? (·.map? c.toNat) with
  | some k =>
    obtain ⟨r, hm, hk⟩ := List.exists_of_findSome?_eq_some hr
    rw [mapCase, hr, List.mem_singleton] at h
    exact .inl ⟨r, hm, k, hk, h⟩
  | none =>
    cases hs : sequences.lookup c.toNat with
    | some ks =>
      obtain ⟨l, l', rfl, _⟩ := List.lookup_eq_some_iff.mp hs
      simp only [mapCase, hr, hs, List.mem_map] at h
      obtain ⟨k, hk, rfl⟩ := h
      exact .inr (.inl ⟨(c.toNat, ks), by simp, k, hk, rfl⟩)
    | none =>
      have he : mapCase runs sequences c = [c] := by rw [mapCase, hr, hs]
      rw [he, List.mem_singleton] at h
      exact .inr (.inr ⟨he, h⟩)

theorem toNat_ofNat (h : k.isValidChar) : (Char.ofNat k).toNat = k := by
  rw [Char.ofNat, dif_pos h]
  rfl

theorem ofNat_of_not_valid (h : ¬ k.isValidChar) : Char.ofNat k = Char.ofNat 0 := by
  rw [Char.ofNat, dif_neg h]
  rfl

theorem ofNat_induction {P : Nat → Prop} (zero : P 0) (h : P k) : P (Char.ofNat k).toNat := by
  by_cases hv : k.isValidChar
  · rwa [toNat_ofNat hv]
  · rw [ofNat_of_not_valid hv]
    exact zero

/-- An image lies in none of the ranges that its table avoids and that its source is not in. -/
theorem outside_of_mem_mapCase (ht : imagesOutside runs sequences ranges = true)
    (hz : inIntervals ranges 0 = false) (hc : inIntervals ranges c.toNat = false)
    (h : d ∈ mapCase runs sequences c) : inIntervals ranges d.toNat = false := by
  rw [imagesOutside, Bool.and_eq_true, List.all_eq_true, List.all_eq_true] at ht
  rcases mem_mapCase h with ⟨r, hr, k, hk, rfl⟩ | ⟨s, hs, k, hk, rfl⟩ | ⟨_, rfl⟩
  · refine ofNat_induction (P := fun n => inIntervals ranges n = false) hz ?_
    rw [inIntervals, List.any_eq_false]
    intro range hrange
    have hout := List.all_eq_true.mp (ht.1 r hr) range hrange
    simpa using CaseRun.not_mem_of_imageOutside hout hk
  · refine ofNat_induction (P := fun n => inIntervals ranges n = false) hz ?_
    simpa using List.all_eq_true.mp (ht.2 s hs) k hk
  · exact hc

def blankRanges : List (Nat × Nat) :=
  [(9, 13), (0x20, 0x20), (0x85, 0x85), (0xA0, 0xA0), (0x1680, 0x1680), (0x2000, 0x200A),
    (0x2028, 0x2028), (0x2029, 0x2029), (0x202F, 0x202F), (0x205F, 0x205F), (0x3000, 0x3000)]

theorem isBlank_eq (c : Char) : isBlank c = inIntervals blankRanges c.toNat := by
  rw [Bool.eq_iff_iff]
  simp only [isBlank, inIntervals, blankRanges, Bool.or_eq_true, Bool.and_eq_true,
    decide_eq_true_eq, beq_iff_eq, List.any_cons, List.any_nil, Bool.or_false]
  omega

def separatorRanges : List (Nat × Nat) :=
  (0x2D, 0x2D) :: (0x5F, 0x5F) :: blankRanges

theorem lowerRuns_outside : imagesOutside lowerRuns lowerSequences separatorRanges = true := by
  decide +kernel

theorem lowerRuns_outside_blanks : imagesOutside lowerRuns lowerSequences blankRanges = true :=
  imagesOutside_of_cons (imagesOutside_of_cons lowerRuns_outside)

def blocks : Nat → List CaseRun → List (List CaseRun)
  | 0, runs => [runs]
  | n + 1, runs => runs.take 16 :: blocks n (runs.drop 16)

theorem flatten_blocks (n : Nat) (runs : List CaseRun) : (blocks n runs).flatten = runs := by
  induction n generalizing runs with
  | zero => exact List.flatten_singleton
  | succ n ih => rw [blocks, List.flatten_cons, ih, List.take_append_drop]

def span (block : List CaseRun) : Nat × Nat :=
  ((block.head?.map (·.first)).getD 0, (block.getLast?.map (·.last)).getD 0)

theorem lowerRuns_spanned : (blocks 11 lowerRuns).all (fun block => block.all fun s =>
    (span block).1.ble s.first && s.last.ble (span block).2) = true := by
  decide +kernel

theorem lowerRuns_miss_blocks : lowerRuns.all (fun r => (blocks 11 lowerRuns).all fun block =>
    r.imageOutside (span block) || block.all r.imageMisses) = true := by
  decide +kernel

/-- Comparing with whole blocks first, as there are too many pairs of runs. -/
theorem lowerRuns_miss (hr : r ∈ lowerRuns) (hs : s ∈ lowerRuns) : r.imageMisses s = true := by
  rw [← flatten_blocks 11 lowerRuns, List.mem_flatten] at hs
  obtain ⟨block, hblock, hs⟩ := hs
  have hspan := List.all_eq_true.mp (List.all_eq_true.mp lowerRuns_spanned block hblock) s hs
  rw [Bool.and_eq_true, Nat.ble_eq, Nat.ble_eq] at hspan
  have hmiss := List.all_eq_true.mp (List.all_eq_true.mp lowerRuns_miss_blocks r hr) block hblock
  rcases Bool.or_eq_true _ _ ▸ hmiss with hout | hmiss
  · rw [CaseRun.imageMisses, CaseRun.imageOutside_of_le hout hspan.1 hspan.2, Bool.true_or]
  · exact List.all_eq_true.mp hmiss s hs

theorem lowerRuns_outside_sequences :
    lowerRuns.all (fun r => r.imageOutside (0x130, 0x130)) = true := by
  decide +kernel

theorem isBlank_of_mem_lowerChar (hc : isBlank c = false) (h : d ∈ lowerChar c) :
    isBlank d = false := by
  rw [isBlank_eq] at hc ⊢
  exact outside_of_mem_mapCase lowerRuns_outside_blanks rfl hc h

theorem lowerChar_of_unmapped (hr : ∀ r ∈ lowerRuns, r.map? c.toNat = none)
    (hs : c.toNat ≠ 0x130) : lowerChar c = [c] := by
  have hf : lowerRuns.findSome? (·.map? c.toNat) = none := by
    rw [List.findSome?_eq_none_iff]
    exact hr
  have hl : lowerSequences.lookup c.toNat = none := by
    rw [lowerSequences, List.lookup_cons, beq_eq_false_iff_ne.mpr hs]
    rfl
  rw [lowerChar, mapCase, hf, hl]

theorem lowerChar_of_mem (h : d ∈ lowerChar c) : lowerChar d = [d] := by
  rcases mem_mapCase h with ⟨r, hr, k, hk, rfl⟩ | ⟨s, hs, k, hk, rfl⟩ | ⟨he, rfl⟩
  · by_cases hv : k.isValidChar
    · apply lowerChar_of_unmapped
      · intro s hs
        rw [toNat_ofNat hv]
        exact CaseRun.map?_of_imageMisses (lowerRuns_miss hr hs) hk
      · have ho := List.all_eq_true.mp lowerRuns_outside_sequences r hr
        have hne := CaseRun.not_mem_of_imageOutside ho hk
        rw [toNat_ofNat hv]
        omega
    · rw [ofNat_of_not_valid hv]
      decide
  · have hall : ∀ s ∈ lowerSequences, ∀ k ∈ s.2,
        lowerChar (Char.ofNat k) = [Char.ofNat k] := by decide
    exact hall s hs k hk
  · exact he

theorem lowerChar_sigma : lowerChar 'Σ' = ['σ'] := rfl

theorem lowerChar_of_isUpper (h : c.isUpper = true) : lowerChar c ≠ [c] := by
  have hc : 65 ≤ c.toNat ∧ c.toNat ≤ 90 :=
    of_decide_eq_true (p := 'A'.val ≤ c.val ∧ c.val ≤ 'Z'.val) h
  have hall : ∀ n < 26, lowerChar (Char.ofNat (65 + n)) ≠ [Char.ofNat (65 + n)] := by
    decide
  have hn := hall (c.toNat - 65) (by omega)
  rwa [Nat.add_sub_cancel' hc.1, Char.ofNat_toNat] at hn

def IsLowered (cs : List Char) : Prop :=
  ∀ c ∈ cs, lowerChar c = [c]

theorem lowerFrom_of_isLowered (h : IsLowered cs) (before : List Char) :
    lowerFrom before cs = cs := by
  induction cs generalizing before with
  | nil => rfl
  | cons c cs ih =>
    have hc := h c List.mem_cons_self
    have hne : c ≠ 'Σ' := by
      rintro rfl
      rw [lowerChar_sigma] at hc
      simp at hc
    rw [lowerFrom, if_neg hne, hc, ih fun d hd => h d (List.mem_cons_of_mem _ hd)]
    rfl

theorem mem_lowerFrom (h : d ∈ lowerFrom before cs) : ∃ c ∈ cs, d ∈ lowerChar c ∨ d = 'ς' := by
  induction cs generalizing before with
  | nil => cases h
  | cons c cs ih =>
    rw [lowerFrom, List.mem_append] at h
    rcases h with h | h
    · refine ⟨c, List.mem_cons_self, ?_⟩
      split at h
      · rename_i hc
        subst hc
        rw [lowerChar_sigma]
        split at h
        · exact .inr (List.mem_singleton.mp h)
        · exact .inl h
      · exact .inl h
    · obtain ⟨b, hb, hd⟩ := ih h
      exact ⟨b, List.mem_cons_of_mem _ hb, hd⟩

theorem isLowered_lower (cs : List Char) : IsLowered (lower cs) := by
  intro d hd
  obtain ⟨c, _, hc | rfl⟩ := mem_lowerFrom hd
  · exact lowerChar_of_mem hc
  · rfl

theorem isBlank_of_mem_lower (hcs : ∀ c ∈ cs, isBlank c = false) (h : d ∈ lower cs) :
    isBlank d = false := by
  obtain ⟨c, hc, hd | rfl⟩ := mem_lowerFrom h
  · exact isBlank_of_mem_lowerChar (hcs c hc) hd
  · rfl

theorem ascii_induction {P : Char → Prop} (h : ∀ n < 128, P (Char.ofNat n)) (hc : c.toNat < 128) :
    P c := by
  have hn := h c.toNat hc
  rwa [Char.ofNat_toNat] at hn

theorem CaseRun.map?_of_lt {r : CaseRun} (h : n < r.first) : r.map? n = none :=
  if_neg fun hr => Nat.not_lt_of_le hr.1 h

/-- Of a table only the runs that start below a bound count for the characters below it. -/
theorem mapCase_of_lt (hs : ∀ s ∈ sequences, bound ≤ s.1) (hc : c.toNat < bound) :
    mapCase runs sequences c = mapCase (runs.filter (·.first < bound)) [] c := by
  have hlookup : sequences.lookup c.toNat = none := by
    rw [List.lookup_eq_none_iff]
    intro s hm
    have hle := hs s hm
    simp
    omega
  have hruns : runs.findSome? (·.map? c.toNat) =
      (runs.filter (·.first < bound)).findSome? (·.map? c.toNat) := by
    induction runs with
    | nil => rfl
    | cons r runs ih =>
      rw [List.findSome?_cons, ih, List.filter_cons]
      split
      · rename_i hmap
        have hlt : r.first < bound := by
          by_contra hle
          rw [CaseRun.map?_of_lt (by omega)] at hmap
          cases hmap
        rw [if_pos (by simpa using hlt), List.findSome?_cons, hmap]
      · rename_i hmap
        split
        · rw [List.findSome?_cons, hmap]
        · rfl
  rw [mapCase, mapCase, hlookup, hruns]
  rfl

theorem lowerRuns_ascii : lowerRuns.filter (·.first < 128) = [⟨0x41, 0x5A, 1, 32⟩] := rfl

theorem upperRuns_ascii : upperRuns.filter (·.first < 128) = [⟨0x61, 0x7A, 1, -32⟩] := rfl

theorem lowerChar_of_ascii (h : c.toNat < 128) : lowerChar c = [c.toLower] := by
  rw [lowerChar, mapCase_of_lt (by decide) h, lowerRuns_ascii]
  exact ascii_induction (P := fun c => mapCase _ _ c = [c.toLower]) (by decide) h

theorem upperChar_of_ascii (h : c.toNat < 128) : upperChar c = [c.toUpper] := by
  rw [upperChar, mapCase_of_lt (by decide) h, upperRuns_ascii]
  exact ascii_induction (P := fun c => mapCase _ _ c = [c.toUpper]) (by decide) h

theorem lowerFrom_of_ascii (h : ∀ c ∈ cs, c.toNat < 128) (before : List Char) :
    lowerFrom before cs = cs.map Char.toLower := by
  induction cs generalizing before with
  | nil => rfl
  | cons c cs ih =>
    have hc := h c List.mem_cons_self
    have hne : c ≠ 'Σ' := by
      rintro rfl
      exact absurd hc (by decide)
    rw [lowerFrom, if_neg hne, lowerChar_of_ascii hc,
      ih fun d hd => h d (List.mem_cons_of_mem _ hd)]
    rfl

end Scaffold.Text
