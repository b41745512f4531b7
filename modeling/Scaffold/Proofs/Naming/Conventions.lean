import Scaffold.Proofs.Naming.TestName

namespace Scaffold
set_option autoImplicit true

namespace Naming

open Text

def isIdentifierChar (c : Char) : Bool :=
  c.isAlphanum || c == '_'

theorem ascii_of_isIdentifierChar (h : isIdentifierChar c = true) : c.toNat < 128 := by
  rcases Bool.or_eq_true_iff.mp h with h | h
  · rcases Bool.or_eq_true_iff.mp h with h | hdigit
    · rcases Bool.or_eq_true_iff.mp h with hupper | hlower
      · exact Nat.lt_of_le_of_lt (of_decide_eq_true hupper).2 (by decide : 'Z'.toNat < 128)
      · obtain ⟨_, hlast⟩ := Bool.and_eq_true_iff.mp hlower
        exact Nat.lt_of_le_of_lt (of_decide_eq_true hlast) (by decide : 'z'.toNat < 128)
    · obtain ⟨_, hlast⟩ := Bool.and_eq_true_iff.mp hdigit
      exact Nat.lt_of_le_of_lt (of_decide_eq_true hlast) (by decide : '9'.toNat < 128)
  · rw [beq_iff_eq.mp h]
    decide

def isSnakeChar (c : Char) : Bool :=
  c.isLower || c.isDigit || c == '_'

theorem isIdentifierChar_of_isSnakeChar (h : isSnakeChar c = true) :
    isIdentifierChar c = true := by
  rcases Bool.or_eq_true_iff.mp h with h | hline
  · have hletter (hlower : c.isLower = true) : c.isAlpha = true :=
      Bool.or_eq_true_iff.mpr (.inr hlower)
    have halphanum : c.isAlphanum = true :=
      Bool.or_eq_true_iff.mpr ((Bool.or_eq_true_iff.mp h).imp_left hletter)
    exact Bool.or_eq_true_iff.mpr (.inl halphanum)
  · exact Bool.or_eq_true_iff.mpr (.inr hline)

theorem identifier_induction {P : Char → Prop}
    (h : ∀ n < 128, isIdentifierChar (Char.ofNat n) = true → P (Char.ofNat n))
    (hc : isIdentifierChar c = true) : P c :=
  ascii_induction (P := fun c => isIdentifierChar c = true → P c) h
    (ascii_of_isIdentifierChar hc) hc

theorem recase_identifier (h : isIdentifierChar c = true) :
    c.toUpper.toNat < 128 ∧ isSnakeChar c.toLower = true ∧
      isSnakeChar c.toUpper.toLower = true :=
  identifier_induction (P := fun c => c.toUpper.toNat < 128 ∧ isSnakeChar c.toLower = true ∧
    isSnakeChar c.toUpper.toLower = true) (by decide) h

theorem isSeparator_of_isIdentifierChar (h : isIdentifierChar c = true) :
    isSeparator c = (c == '_') :=
  identifier_induction (P := fun c => isSeparator c = (c == '_')) (by decide) h

theorem recase_of_isSnakeChar (h : isSnakeChar c = true) :
    c.toLower = c ∧ c.toUpper.toLower = c ∧ c.toUpper.isUpper = c.isAlpha :=
  identifier_induction (P := fun c => isSnakeChar c = true →
    c.toLower = c ∧ c.toUpper.toLower = c ∧ c.toUpper.isUpper = c.isAlpha) (by decide)
    (isIdentifierChar_of_isSnakeChar h) h

/-- A name of ASCII letters, digits and underscores. -/
def IsIdentifier (cs : List Char) : Prop :=
  ∀ c ∈ cs, isIdentifierChar c = true

instance (cs : List Char) : Decidable (IsIdentifier cs) :=
  List.decidableBAll _ cs

theorem IsIdentifier.mem_upperFirst (h : IsIdentifier w) (hd : d ∈ upperFirst w) :
    ∃ c ∈ w, d = c.toUpper ∨ d = c := by
  obtain ⟨c, hc, hd⟩ := Naming.mem_upperFirst hd
  rw [upperChar_of_ascii (ascii_of_isIdentifierChar (h c hc)), List.mem_singleton] at hd
  exact ⟨c, hc, hd⟩

/-- An identifier in snake case. -/
def IsSnake (cs : List Char) : Prop :=
  ∀ c ∈ cs, isSnakeChar c = true

theorem isSnake_snakeChars (h : IsIdentifier cs) : IsSnake (snakeChars cs) := by
  intro d hd
  rw [snakeChars] at hd
  split at hd
  · rename_i hlower
    rw [Bool.and_eq_true, List.all_eq_true] at hlower
    simp [isSnakeChar, hlower.2 d hd]
  · have hmarked : ∀ c ∈ markInnerCapitals ((words cs).flatMap upperFirst),
        c.toNat < 128 ∧ isSnakeChar c.toLower = true := by
      intro c hc
      rcases mem_markInnerCapitals hc with rfl | hc
      · decide
      · obtain ⟨w, hw, hc⟩ := List.mem_flatMap.mp hc
        have hid : IsIdentifier w :=
          fun b hb => h b (mem_splitWhere (List.mem_of_mem_filter hw) hb).2
        obtain ⟨b, hb, hc⟩ := hid.mem_upperFirst hc
        obtain ⟨hupper, hlower, hrecased⟩ := recase_identifier (hid b hb)
        rcases hc with rfl | rfl
        · exact ⟨hupper, hrecased⟩
        · exact ⟨ascii_of_isIdentifierChar (hid c hb), hlower⟩
    rw [lower, lowerFrom_of_ascii fun c hc => (hmarked c hc).1] at hd
    obtain ⟨c, hc, rfl⟩ := List.mem_map.mp hd
    exact (hmarked c hc).2

def startsWithLetter (w : List Char) : Bool :=
  w.head?.any Char.isAlpha

/-- What is left of the boundary before a word of a name that went through camel case. -/
def respell (w : List Char) : List Char :=
  if startsWithLetter w then '_' :: w else w

theorem markCapitals_append (cs ds : List Char) :
    markCapitals (cs ++ ds) = markCapitals cs ++ markCapitals ds :=
  List.flatMap_append

theorem IsSnake.isIdentifier (h : IsSnake cs) : IsIdentifier cs :=
  fun c hc => isIdentifierChar_of_isSnakeChar (h c hc)

theorem IsSnake.ascii (h : IsSnake cs) (hc : c ∈ cs) : c.toNat < 128 :=
  ascii_of_isIdentifierChar (h.isIdentifier c hc)

theorem IsSnake.isLowered (h : IsSnake cs) : IsLowered cs := by
  intro c hc
  rw [lowerChar_of_ascii (h.ascii hc), (recase_of_isSnakeChar (h c hc)).1]

theorem map_toLower_of_isSnake (h : IsSnake cs) : cs.map Char.toLower = cs := by
  rw [List.map_congr_left (g := id) fun c hc => (recase_of_isSnakeChar (h c hc)).1, List.map_id]

theorem lower_upperFirst_of_isSnake (h : IsSnake w) :
    (markCapitals (upperFirst w)).map Char.toLower = respell w := by
  cases w with
  | nil => rfl
  | cons c cs =>
    have hcs : IsSnake cs := fun d hd => h d (List.mem_cons_of_mem _ hd)
    obtain ⟨_, hrecased, hupper⟩ := recase_of_isSnakeChar (h c List.mem_cons_self)
    have hhead : markCapitals [c.toUpper] =
        if c.isAlpha then ['_', c.toUpper] else [c.toUpper] := by
      rw [markCapitals, List.flatMap_singleton, hupper]
    have hletter : startsWithLetter (c :: cs) = c.isAlpha := rfl
    rw [upperFirst, upperChar_of_ascii (h.ascii List.mem_cons_self), markCapitals_append,
      markCapitals_of_isLowered hcs.isLowered, List.map_append, map_toLower_of_isSnake hcs,
      hhead, respell, hletter]
    split
    · rw [List.map_cons, List.map_singleton, hrecased]
      rfl
    · rw [List.map_singleton, hrecased]
      rfl

theorem length_flatMap_respell (ws : List (List Char)) :
    (ws.flatMap respell).length = ws.countP startsWithLetter + ws.flatten.length := by
  induction ws with
  | nil => rfl
  | cons w ws ih =>
    have hw : (respell w).length = w.length + if startsWithLetter w then 1 else 0 := by
      rw [respell]
      split <;> rfl
    rw [List.flatMap_cons, List.length_append, ih, List.countP_cons, List.flatten_cons,
      List.length_append, hw]
    omega

theorem length_flatMap_cons (s : α) (ws : List (List α)) :
    (ws.flatMap (s :: ·)).length = ws.length + ws.flatten.length := by
  induction ws with
  | nil => rfl
  | cons w ws ih =>
    rw [List.flatMap_cons, List.length_append, ih, List.flatten_cons, List.length_append,
      List.length_cons, List.length_cons]
    omega

/-- Counting letters tells whether all boundaries are left. -/
theorem flatMap_respell_eq_iff (ws : List (List Char)) :
    ws.flatMap respell = ws.flatMap ('_' :: ·) ↔ ∀ w ∈ ws, startsWithLetter w = true := by
  constructor
  · intro h
    have hlength := congrArg List.length h
    rw [length_flatMap_respell, length_flatMap_cons, Nat.add_right_cancel_iff] at hlength
    exact List.countP_eq_length.mp hlength
  · intro h
    apply List.flatMap_congr
    intro w hw
    rw [respell, if_pos (h w hw)]

theorem snakeChars_marked (ha : ∀ c ∈ cs, c.toNat < 128) (hb : NoBlank cs) :
    snakeChars (testMarker ++ cs) = testMarker ++ (markCapitals cs).map Char.toLower := by
  have hwords : words (testMarker ++ cs) = [testMarker ++ cs] := by
    rw [words, splitWhere_of_none (noBlank_testMarker.append hb)]
    rfl
  rw [snakeChars]
  split
  · rename_i h
    simp only [Bool.and_eq_true, List.all_append, List.all_eq_true] at h
    have hl : IsSnake cs := by
      intro c hc
      simp [isSnakeChar, h.2.2 c hc]
    rw [markCapitals_of_isLowered hl.isLowered, map_toLower_of_isSnake hl]
  · have hmarked : ∀ c ∈ 'T' :: markCapitals (['e', 's', 't'] ++ cs), c.toNat < 128 := by
      intro c hc
      rcases List.mem_cons.mp hc with rfl | hc
      · decide
      · rcases mem_markCapitals hc with rfl | hc
        · decide
        · rcases List.mem_append.mp hc with hc | hc
          · have hmarker : ∀ d ∈ ['e', 's', 't'], d.toNat < 128 := by simp
            exact hmarker c hc
          · exact ha c hc
    rw [hwords, List.flatMap_singleton, upperFirst_marker]
    change lower ('T' :: markCapitals (['e', 's', 't'] ++ cs)) = _
    rw [lower, lowerFrom_of_ascii hmarked, markCapitals_append]
    rfl

theorem normalizeChars_snake_camel (h : IsIdentifier m) :
    normalizeChars .snake (testNameChars .camel m) =
      testMarker ++ (splitWhere (· == '_') (snakeChars m)).flatMap respell := by
  have hs := isSnake_snakeChars h
  have hwords : ∀ w ∈ splitWhere (· == '_') (snakeChars m), IsSnake w :=
    fun w hw c hc => hs c (mem_splitWhere hw hc).2
  have hpascal : pascalChars (snakeChars m) =
      (splitWhere (· == '_') (snakeChars m)).flatMap upperFirst := by
    rw [pascalChars, splitWhere_congr]
    exact fun c hc => isSeparator_of_isIdentifierChar (hs.isIdentifier c hc)
  have hascii : ∀ c ∈ pascalChars (snakeChars m), c.toNat < 128 := by
    intro c hc
    rw [hpascal] at hc
    obtain ⟨w, hw, hc⟩ := List.mem_flatMap.mp hc
    obtain ⟨b, hb, rfl | rfl⟩ := (hwords w hw).isIdentifier.mem_upperFirst hc
    · exact (recase_identifier ((hwords w hw).isIdentifier b hb)).1
    · exact (hwords w hw).ascii hb
  have hblank : NoBlank (pascalChars (snakeChars m)) :=
    fun c hc => isBlank_of_isSeparator (isSeparator_of_mem_pascalChars hc)
  rw [testNameChars_camel, normalizeChars, snakeChars_marked hascii hblank, hpascal, markCapitals,
    List.flatMap_assoc, List.map_flatMap]
  congr 1
  apply List.flatMap_congr
  intro w hw
  exact lower_upperFirst_of_isSnake (hwords w hw)

/-- The way back from camel case finds all boundaries if all words start with letters. -/
theorem normalizeChars_snake_camel_eq_iff (h : IsIdentifier m) :
    normalizeChars .snake (testNameChars .camel m) = testNameChars .snake m ↔
      ∀ w ∈ splitWhere (· == '_') (snakeChars m), startsWithLetter w = true := by
  have hs : '_' :: snakeChars m = (splitWhere (· == '_') (snakeChars m)).flatMap ('_' :: ·) := by
    rw [← cons_intercalate '_' (splitWhere_ne_nil _ _), intercalate_splitWhere]
  rw [normalizeChars_snake_camel h, testNameChars_snake, List.append_cancel_left_eq, hs,
    flatMap_respell_eq_iff]

/-- Test names are recognized across conventions: every name made in snake case becomes the one in
camel case, and for an identifier the name made in camel case becomes the one in snake case exactly
if all words of the identifier in snake case start with letters. -/
theorem recognized_across_conventions (m : String) :
    normalize .camel (testMethodName .snake m) = testMethodName .camel m ∧
      (IsIdentifier m.toList →
        (normalize .snake (testMethodName .camel m) = testMethodName .snake m ↔
          ∀ w ∈ splitWhere (· == '_') (snakeCase m).toList, startsWithLetter w = true)) := by
  constructor
  · rw [normalize, testMethodName, String.toList_ofList, testNameChars_snake]
    rfl
  · intro h
    rw [normalize, testMethodName, testMethodName, snakeCase, String.toList_ofList,
      String.toList_ofList, String.ofList_inj]
    exact normalizeChars_snake_camel_eq_iff h

theorem recognized_across_conventions_samples :
    normalize .snake (testMethodName .camel "fooBar2") = testMethodName .snake "fooBar2" ∧
      normalize .snake (testMethodName .camel "__construct") ≠
        testMethodName .snake "__construct" ∧
      normalize .snake (testMethodName .camel "foo_1") ≠ testMethodName .snake "foo_1" := by
  refine ⟨?_, ?_, ?_⟩
  · exact ((recognized_across_conventions "fooBar2").2 (by decide)).mpr (by decide +kernel)
  · rw [Ne, (recognized_across_conventions "__construct").2 (by decide)]
    decide +kernel
  · rw [Ne, (recognized_across_conventions "foo_1").2 (by decide)]
    decide +kernel

end Naming

end Scaffold
