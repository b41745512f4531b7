import Scaffold.Proofs.Naming.TestName

namespace Scaffold
set_option autoImplicit true

namespace Naming

open Text

theorem isSeparator_of_mem_lowerChar (hc : isSeparator c = false) (h : d ∈ lowerChar c) :
    isSeparator d = false := by
  rw [isSeparator_eq] at hc ⊢
  exact outside_of_mem_mapCase lowerRuns_outside rfl hc h

theorem isSeparator_of_mem_camelChars (h : d ∈ camelChars cs) : isSeparator d = false := by
  have hpascal : ∀ c ∈ pascalChars cs, isSeparator c = false :=
    fun c hc => isSeparator_of_mem_pascalChars hc
  rw [camelChars] at h
  cases hp : pascalChars cs with
  | nil =>
    rw [hp] at h
    cases h
  | cons c ds =>
    rw [hp] at h hpascal
    rcases List.mem_append.mp h with h | h
    · exact isSeparator_of_mem_lowerChar (hpascal c List.mem_cons_self) h
    · exact hpascal d (List.mem_cons_of_mem _ h)

/-- A test's name is a normal form of the convention it was brought into. Other names need not be:
in snake case `ẞ` becomes `ß`, and `ß` becomes `s_s`. -/
theorem normalizeChars_idem (h : testMarker <+: normalizeChars format cs) :
    normalizeChars format (normalizeChars format cs) = normalizeChars format cs := by
  obtain ⟨ds, hds⟩ := h
  cases format with
  | snake =>
    have hl := isLowered_snakeChars cs
    have hb := noBlank_snakeChars cs
    change testMarker ++ ds = snakeChars cs at hds
    change snakeChars (snakeChars cs) = snakeChars cs
    rw [← hds] at hl hb ⊢
    exact snakeChars_of_isLowered (fun c hc => hl c (List.mem_cons_of_mem _ hc)) hb
  | camel =>
    change testMarker ++ ds = camelChars cs at hds
    change camelChars (camelChars cs) = camelChars cs
    have hsep : ∀ c ∈ testMarker ++ ds, isSeparator c = false := by
      rw [hds]
      exact fun c hc => isSeparator_of_mem_camelChars hc
    rw [← hds, camelChars_marked hsep]

theorem isTestName_iff : isTestName n = true ↔ testMarker <+: n.toList := by
  rw [isTestName, List.isPrefixOf_iff_prefix]

theorem testMethodName_snake (m : String) :
    testMethodName .snake m = "test_" ++ snakeCase m := by
  rw [testMethodName, testNameChars_snake, snakeCase]
  apply String.toList_inj.mp
  simp [testMarker]

/-- Test names are normal forms: the name made for a test starts with the marker and is in its
convention, and a name that a convention turns into a test's name is not changed any further. -/
theorem test_names_normal (format : MethodFormat) (m n : String) :
    "test".toList <+: (testMethodName format m).toList ∧
      normalize format (testMethodName format m) = testMethodName format m ∧
      testMethodName .snake m = "test_" ++ snakeCase m ∧
      (isTestName (normalize format n) = true →
        normalize format (normalize format n) = normalize format n) := by
  refine ⟨isTestName_iff.mp (isTestName_testMethodName format m),
    normalize_testMethodName format m, testMethodName_snake m, ?_⟩
  intro h
  rw [isTestName_iff, normalize, String.toList_ofList] at h
  rw [normalize, normalize, String.toList_ofList, normalizeChars_idem h]

theorem test_names_normal_sigma :
    isTestName (normalize .snake "Test ΟΔΟΣ") = true ∧
      normalize .snake (normalize .snake "Test ΟΔΟΣ") = "testοδος" ∧
      isTestName (normalize .camel "test_οδος") = true ∧
      normalize .camel (normalize .camel "test_οδος") = "testΟδος" ∧
      normalize .camel (testMethodName .camel "ΟΔΟΣ") = "testΟδος" := by
  have hsnake : isTestName (normalize .snake "Test ΟΔΟΣ") = true := by decide +kernel
  have hcamel : isTestName (normalize .camel "test_οδος") = true := by decide +kernel
  obtain ⟨_, _, _, hidem⟩ := test_names_normal .snake "ΟΔΟΣ" "Test ΟΔΟΣ"
  obtain ⟨_, hmade, _, hidem'⟩ := test_names_normal .camel "ΟΔΟΣ" "test_οδος"
  rw [hidem hsnake, hidem' hcamel, hmade]
  exact ⟨hsnake, by decide +kernel, hcamel, by decide +kernel, by decide +kernel⟩

end Naming

end Scaffold
