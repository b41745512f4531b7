import Scaffold.Naming
import Scaffold.Proofs.Text.Blank
import Scaffold.Proofs.Text.Case

namespace Scaffold
set_option autoImplicit true

namespace Naming

open Text

theorem isSeparator_eq (c : Char) : isSeparator c = inIntervals separatorRanges c.toNat := by
  have hchar : ∀ d : Char, (c == d) = (d.toNat ≤ c.toNat && c.toNat ≤ d.toNat) := by
    intro d
    rw [Bool.eq_iff_iff, beq_iff_eq, Bool.and_eq_true, decide_eq_true_eq, decide_eq_true_eq,
      ← Char.toNat_inj]
    omega
  rw [isSeparator, isBlank_eq, hchar, hchar, Bool.or_comm (_ && _) (_ && _), Bool.or_assoc]
  rfl

theorem upperRuns_outside : imagesOutside upperRuns upperSequences separatorRanges = true := by
  decide +kernel

theorem upperRuns_outside_blanks : imagesOutside upperRuns upperSequences blankRanges = true :=
  imagesOutside_of_cons (imagesOutside_of_cons upperRuns_outside)

theorem isSeparator_of_mem_upperChar (hc : isSeparator c = false) (h : d ∈ upperChar c) :
    isSeparator d = false := by
  rw [isSeparator_eq] at hc ⊢
  exact outside_of_mem_mapCase upperRuns_outside rfl hc h

theorem isBlank_of_mem_upperChar (hc : isBlank c = false) (h : d ∈ upperChar c) :
    isBlank d = false := by
  rw [isBlank_eq] at hc ⊢
  exact outside_of_mem_mapCase upperRuns_outside_blanks rfl hc h

theorem lowerChar_of_isLower (h : c.isLower = true) : lowerChar c = [c] ∧ isBlank c = false := by
  have hc : 97 ≤ c.toNat ∧ c.toNat ≤ 122 := by
    obtain ⟨hfirst, hlast⟩ := Bool.and_eq_true_iff.mp h
    exact ⟨of_decide_eq_true hfirst, of_decide_eq_true hlast⟩
  have hall : ∀ n < 26, (Char.ofNat (97 + n)).toLower = Char.ofNat (97 + n) ∧
      isBlank (Char.ofNat (97 + n)) = false := by
    decide
  have hn := hall (c.toNat - 97) (by omega)
  rw [Nat.add_sub_cancel' hc.1, Char.ofNat_toNat] at hn
  rw [lowerChar_of_ascii (by omega), hn.1]
  exact ⟨rfl, hn.2⟩

theorem mem_upperFirst (h : d ∈ upperFirst w) : ∃ c ∈ w, d ∈ upperChar c ∨ d = c := by
  cases w with
  | nil => cases h
  | cons c w =>
    rcases List.mem_append.mp h with h | h
    · exact ⟨c, List.mem_cons_self, .inl h⟩
    · exact ⟨d, List.mem_cons_of_mem _ h, .inr rfl⟩

theorem mem_markCapitals (h : d ∈ markCapitals cs) : d = '_' ∨ d ∈ cs := by
  rw [markCapitals, List.mem_flatMap] at h
  obtain ⟨c, hc, h⟩ := h
  split at h
  · simp only [List.mem_cons, List.not_mem_nil, or_false] at h
    rcases h with rfl | rfl
    · exact .inl rfl
    · exact .inr hc
  · obtain rfl := List.mem_singleton.mp h
    exact .inr hc

theorem mem_markInnerCapitals (h : d ∈ markInnerCapitals cs) : d = '_' ∨ d ∈ cs := by
  cases cs with
  | nil => cases h
  | cons c cs =>
    rcases List.mem_cons.mp h with rfl | h
    · exact .inr List.mem_cons_self
    · exact (mem_markCapitals h).imp_right (List.mem_cons_of_mem _)

theorem isLowered_snakeChars (cs : List Char) : IsLowered (snakeChars cs) := by
  rw [snakeChars]
  split
  · rename_i h
    intro c hc
    simp only [Bool.and_eq_true, List.all_eq_true] at h
    exact (lowerChar_of_isLower (h.2 c hc)).1
  · exact isLowered_lower _

theorem noBlank_snakeChars (cs : List Char) : NoBlank (snakeChars cs) := by
  rw [snakeChars]
  split
  · rename_i h
    intro c hc
    simp only [Bool.and_eq_true, List.all_eq_true] at h
    exact (lowerChar_of_isLower (h.2 c hc)).2
  · intro d hd
    refine isBlank_of_mem_lower ?_ hd
    intro c hc
    rcases mem_markInnerCapitals hc with rfl | hc
    · rfl
    · obtain ⟨w, hw, hc⟩ := List.mem_flatMap.mp hc
      obtain ⟨b, hb, hc⟩ := mem_upperFirst hc
      have hblank := (mem_splitWhere (List.mem_of_mem_filter hw) hb).1
      rcases hc with hc | rfl
      · exact isBlank_of_mem_upperChar hblank hc
      · exact hblank

theorem not_isUpper_of_isLowered (h : IsLowered cs) (hc : c ∈ cs) : c.isUpper = false := by
  cases hu : c.isUpper with
  | false => rfl
  | true => exact absurd (h c hc) (lowerChar_of_isUpper hu)

theorem markCapitals_of_isLowered (h : IsLowered cs) : markCapitals cs = cs := by
  induction cs with
  | nil => rfl
  | cons c cs ih =>
    have htail := ih fun d hd => h d (List.mem_cons_of_mem _ hd)
    rw [markCapitals] at htail ⊢
    rw [List.flatMap_cons, not_isUpper_of_isLowered h List.mem_cons_self, htail]
    rfl

theorem snakeChars_of_isLowered (hl : IsLowered cs) (hb : NoBlank ('t' :: cs)) :
    snakeChars ('t' :: cs) = 't' :: cs := by
  have hwords : words ('t' :: cs) = ['t' :: cs] := by
    rw [words, splitWhere_of_none hb]
    rfl
  have hupper : upperChar 't' = ['T'] := rfl
  have hlower : lowerChar 'T' = ['t'] := rfl
  rw [snakeChars]
  split
  · rfl
  · rw [hwords, List.flatMap_singleton, upperFirst, hupper, List.singleton_append,
      markInnerCapitals, markCapitals_of_isLowered hl, lower, lowerFrom, if_neg (by decide), hlower,
      lowerFrom_of_isLowered hl]
    rfl

theorem isBlank_of_isSeparator (h : isSeparator c = false) : isBlank c = false := by
  rw [isSeparator, Bool.or_eq_false_iff] at h
  exact h.2

theorem isSeparator_of_mem_testMarker (h : c ∈ testMarker) : isSeparator c = false := by
  simp only [testMarker, List.mem_cons, List.not_mem_nil, or_false] at h
  rcases h with rfl | rfl | rfl | rfl <;> rfl

theorem noBlank_testMarker : NoBlank testMarker := by
  intro c hc
  exact isBlank_of_isSeparator (isSeparator_of_mem_testMarker hc)

theorem noBlank_marked (m : List Char) : NoBlank (testMarker ++ '_' :: snakeChars m) := by
  apply noBlank_testMarker.append
  intro c hc
  rcases List.mem_cons.mp hc with rfl | hc
  · rfl
  · exact noBlank_snakeChars m c hc

theorem isLowered_marked (m : List Char) : IsLowered (testMarker ++ '_' :: snakeChars m) := by
  intro c hc
  simp only [testMarker, List.mem_append, List.mem_cons, List.not_mem_nil, or_false] at hc
  rcases hc with (rfl | rfl | rfl | rfl) | rfl | hc
  case inr.inr => exact isLowered_snakeChars m c hc
  all_goals rfl

/-- A test's name in snake case is the marker and the method's name in snake case. -/
theorem testNameChars_snake (m : List Char) :
    testNameChars .snake m = testMarker ++ '_' :: snakeChars m := by
  have hl := isLowered_marked m
  exact snakeChars_of_isLowered (fun c hc => hl c (List.mem_cons_of_mem _ hc)) (noBlank_marked m)

theorem isSeparator_of_mem_pascalChars (h : d ∈ pascalChars cs) : isSeparator d = false := by
  obtain ⟨w, hw, hd⟩ := List.mem_flatMap.mp h
  obtain ⟨c, hc, hd⟩ := mem_upperFirst hd
  have hsep := (mem_splitWhere hw hc).1
  rcases hd with hd | rfl
  · exact isSeparator_of_mem_upperChar hsep hd
  · exact hsep

theorem camelChars_of_pascalChars (h : pascalChars cs = ['T', 'e', 's', 't'] ++ ds) :
    camelChars cs = testMarker ++ ds := by
  have hlower : lowerChar 'T' = ['t'] := rfl
  rw [camelChars, h, List.cons_append, lowerFirst, hlower]
  rfl

theorem upperFirst_marker (cs : List Char) :
    upperFirst (testMarker ++ cs) = ['T', 'e', 's', 't'] ++ cs := by
  have hupper : upperChar 't' = ['T'] := rfl
  rw [testMarker, List.cons_append, upperFirst, hupper]
  rfl

theorem camelChars_marked (h : ∀ c ∈ testMarker ++ cs, isSeparator c = false) :
    camelChars (testMarker ++ cs) = testMarker ++ cs := by
  apply camelChars_of_pascalChars
  rw [pascalChars, splitWhere_of_none h, List.flatMap_singleton, upperFirst_marker]

theorem testNameChars_camel (m : List Char) :
    testNameChars .camel m = testMarker ++ pascalChars (snakeChars m) := by
  have hmarker := upperFirst_marker []
  rw [List.append_nil] at hmarker
  rw [testNameChars, normalizeChars]
  apply camelChars_of_pascalChars
  rw [pascalChars, splitWhere_append_cons (fun _ => isSeparator_of_mem_testMarker) rfl,
    List.flatMap_cons, hmarker]
  rfl

/-- The name of a test is in its convention. -/
theorem normalizeChars_testNameChars (format : MethodFormat) (m : List Char) :
    normalizeChars format (testNameChars format m) = testNameChars format m := by
  cases format with
  | snake =>
    rw [testNameChars_snake]
    exact testNameChars_snake m
  | camel =>
    rw [testNameChars_camel]
    apply camelChars_marked
    intro c hc
    rcases List.mem_append.mp hc with hc | hc
    · exact isSeparator_of_mem_testMarker hc
    · exact isSeparator_of_mem_pascalChars hc

theorem noBlank_testNameChars (format : MethodFormat) (m : List Char) :
    NoBlank (testNameChars format m) := by
  cases format with
  | snake =>
    rw [testNameChars_snake]
    exact noBlank_marked m
  | camel =>
    rw [testNameChars_camel]
    apply noBlank_testMarker.append
    intro c hc
    exact isBlank_of_isSeparator (isSeparator_of_mem_pascalChars hc)

theorem exists_testNameChars (format : MethodFormat) (m : List Char) :
    ∃ cs, testNameChars format m = testMarker ++ cs := by
  cases format with
  | snake => exact ⟨_, testNameChars_snake m⟩
  | camel => exact ⟨_, testNameChars_camel m⟩

@[simp]
theorem normalize_testMethodName (format : MethodFormat) (m : String) :
    normalize format (testMethodName format m) = testMethodName format m := by
  rw [normalize, testMethodName, String.toList_ofList, normalizeChars_testNameChars]

@[simp]
theorem trim_testMethodName (format : MethodFormat) (m : String) :
    trim (testMethodName format m) = testMethodName format m := by
  rw [trim, testMethodName, String.toList_ofList,
    trimChars_of_noBlank (noBlank_testNameChars format m.toList)]

@[simp]
theorem isTestName_testMethodName (format : MethodFormat) (m : String) :
    isTestName (testMethodName format m) = true := by
  obtain ⟨cs, hcs⟩ := exists_testNameChars format m.toList
  rw [isTestName, testMethodName, String.toList_ofList, hcs]
  simp

theorem testMethodName_ne_empty (format : MethodFormat) (m : String) :
    testMethodName format m ≠ "" := by
  intro h
  have ht := isTestName_testMethodName format m
  rw [h] at ht
  cases ht

end Naming

end Scaffold
