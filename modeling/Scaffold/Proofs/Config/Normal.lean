import Scaffold.Config.Layers
import Scaffold.Proofs.Config.Settings
import Scaffold.Proofs.Text.Ends

namespace Scaffold.Config
set_option autoImplicit true

open Text

theorem normalNamespace_toList (s : String) :
    (normalNamespace s).toList = strip (· == '\\') (strip isBlank s.toList) :=
  String.toList_ofList

theorem normalExtension_toList (s : String) :
    (normalExtension s).toList = (strip isBlank s.toList).dropWhile (· == '.') :=
  String.toList_ofList

/-- A namespace is in normal form exactly if neither blanks nor backslashes are at its ends. -/
theorem normalNamespace_eq_self_iff : normalNamespace s = s ↔
    (FreeFront (· == '\\') s.toList ∧ FreeBack (· == '\\') s.toList) ∧
      FreeFront isBlank s.toList ∧ FreeBack isBlank s.toList := by
  rw [← String.toList_inj, normalNamespace_toList]
  constructor
  · intro h
    have hinfix := strip_isInfix (· == '\\') (strip isBlank s.toList)
    rw [h] at hinfix
    have htrim := eq_of_isInfix_strip hinfix
    rw [htrim] at h
    exact ⟨strip_eq_self_iff.mp h, strip_eq_self_iff.mp htrim⟩
  · rintro ⟨hslash, hblank⟩
    rw [strip_eq_self_iff.mpr hblank, strip_eq_self_iff.mpr hslash]

theorem normalExtension_eq_self_iff : normalExtension s = s ↔
    FreeFront (· == '.') s.toList ∧ FreeFront isBlank s.toList ∧ FreeBack isBlank s.toList := by
  rw [← String.toList_inj, normalExtension_toList]
  constructor
  · intro h
    have hinfix := (List.dropWhile_suffix (l := strip isBlank s.toList) (· == '.')).isInfix
    rw [h] at hinfix
    have htrim := eq_of_isInfix_strip hinfix
    rw [htrim] at h
    exact ⟨dropWhile_eq_self_iff.mp h, strip_eq_self_iff.mp htrim⟩
  · rintro ⟨hdot, hblank⟩
    rw [strip_eq_self_iff.mpr hblank, dropWhile_eq_self_iff.mpr hdot]

theorem normalized_eq_self_iff {c : Config} : c.normalized = c ↔
    normalNamespace c.target.namesp = c.target.namesp ∧
      normalExtension c.source.extension = c.source.extension ∧
      (∀ root ∈ c.source.roots, isBlankText root = false) ∧
      ∀ pattern ∈ c.source.exclude, pattern ≠ "" := by
  obtain ⟨source, target, general⟩ := c
  obtain ⟨base, roots, exclude, extension⟩ := source
  obtain ⟨namesp, directory, template, methodFormat⟩ := target
  simp only [normalized, Config.mk.injEq, SourceConfig.mk.injEq, TargetConfig.mk.injEq,
    List.filter_eq_self, true_and, and_true, Bool.not_eq_true', String.isEmpty_eq_false_iff]
  constructor
  · rintro ⟨⟨hroots, hexclude, hextension⟩, hnamesp⟩
    exact ⟨hnamesp, hextension, hroots, hexclude⟩
  · rintro ⟨hnamesp, hextension, hroots, hexclude⟩
    exact ⟨⟨hroots, hexclude, hextension⟩, hnamesp⟩

theorem validate_eq_ok_iff {c : Config} : c.validate = .ok () ↔
    (∃ root ∈ c.source.roots, isBlankText root = false) ∧ c.source.extension ≠ "" ∧
      c.target.namesp ≠ "" ∧ isBlankText c.target.template = false := by
  have hroots : (∃ root ∈ c.source.roots, isBlankText root = false) ↔
      ¬ c.source.roots.all isBlankText = true := by simp
  rw [hroots, validate]
  split
  · simp [*]
  · split
    · simp_all
    · split
      · simp_all
      · split <;> simp_all

theorem accept_eq_ok_iff {c c' : Config} :
    c.accept = .ok c' ↔ c'.validate = .ok () ∧ c' = c.normalized := by
  rw [accept]
  cases hv : c.normalized.validate with
  | error e =>
    refine ⟨nofun, ?_⟩
    rintro ⟨hc, rfl⟩
    rw [hv] at hc
    cases hc
  | ok u =>
    constructor
    · rintro ⟨⟩
      exact ⟨hv, rfl⟩
    · rintro ⟨_, rfl⟩
      rfl

theorem load_eq (p : ConfigPlace) (o : Overrides) : load p o = (do
    let layers ← p.layers
    let raw ← (ofLayers (layers ++ [o.toValue])).mapError .fault
    raw.accept.mapError .invalid) := by
  rw [load]
  cases p.layers with
  | error e => rfl
  | ok layers =>
    simp only [bind, Except.bind]
    cases ofLayers (layers ++ [o.toValue]) with
    | error cause => rfl
    | ok raw =>
      dsimp only [Except.mapError]
      cases raw.accept <;> rfl

/-- A configuration is loaded if the layers can be read, describe one, and it is accepted. -/
theorem load_eq_ok_iff {p : ConfigPlace} {o : Overrides} {c : Config} : load p o = .ok c ↔
    ∃ layers raw, p.layers = .ok layers ∧ ofLayers (layers ++ [o.toValue]) = .ok raw ∧
      raw.accept = .ok c := by
  rw [load_eq]
  constructor
  · intro h
    obtain ⟨layers, hlayers, h⟩ := Except.exists_of_bind_eq_ok h
    obtain ⟨raw, hraw, haccept⟩ := Except.exists_of_bind_eq_ok h
    exact ⟨layers, raw, hlayers, Except.mapError_eq_ok_iff.mp hraw,
      Except.mapError_eq_ok_iff.mp haccept⟩
  · rintro ⟨layers, raw, hlayers, hraw, haccept⟩
    rw [hlayers]
    change ((ofLayers (layers ++ [o.toValue])).mapError ConfigError.fault >>= _) = _
    rw [hraw]
    exact Except.mapError_eq_ok_iff.mpr haccept

theorem normal_of_load {p : ConfigPlace} {o : Overrides} {c : Config} (h : load p o = .ok c) :
    c.validate = .ok () ∧ ∃ raw : Config, c = raw.normalized := by
  obtain ⟨_, raw, _, _, haccept⟩ := load_eq_ok_iff.mp h
  obtain ⟨hvalid, hnormal⟩ := accept_eq_ok_iff.mp haccept
  exact ⟨hvalid, raw, hnormal⟩

/-- A configuration that is loaded has a namespace without backslashes at its ends, an extension
without a dot at its front or a blank at its end, roots that are no blank texts, and patterns that
are not empty. It is in normal form exactly if no blank is at an end of the namespace or at the
front of the extension, as one is that stood behind a backslash or a dot. -/
theorem load_normal_iff {p : ConfigPlace} {o : Overrides} {c : Config} (h : load p o = .ok c) :
    (c.target.namesp ≠ "" ∧ FreeFront (· == '\\') c.target.namesp.toList ∧
      FreeBack (· == '\\') c.target.namesp.toList) ∧
    (c.source.extension ≠ "" ∧ FreeFront (· == '.') c.source.extension.toList ∧
      FreeBack isBlank c.source.extension.toList) ∧
    (c.source.roots ≠ [] ∧ ∀ root ∈ c.source.roots, isBlankText root = false) ∧
    (∀ pattern ∈ c.source.exclude, pattern ≠ "") ∧
    (c.normalized = c ↔ FreeFront isBlank c.target.namesp.toList ∧
      FreeBack isBlank c.target.namesp.toList ∧ FreeFront isBlank c.source.extension.toList) := by
  obtain ⟨hvalid, raw, rfl⟩ := normal_of_load h
  obtain ⟨⟨root, hroot, _⟩, hextension, hnamesp, _⟩ := validate_eq_ok_iff.mp hvalid
  have hroots : ∀ root ∈ raw.normalized.source.roots, isBlankText root = false := by
    intro root hroot
    simpa using (List.mem_filter.mp hroot).2
  have hexclude : ∀ pattern ∈ raw.normalized.source.exclude, pattern ≠ "" := by
    intro pattern hpattern
    simpa using (List.mem_filter.mp hpattern).2
  have hslash : FreeFront (· == '\\') raw.normalized.target.namesp.toList ∧
      FreeBack (· == '\\') raw.normalized.target.namesp.toList := by
    rw [normalized, normalNamespace_toList]
    exact ⟨freeFront_strip _ _, freeBack_strip _ _⟩
  have hdot : FreeFront (· == '.') raw.normalized.source.extension.toList := by
    rw [normalized, normalExtension_toList]
    exact freeFront_dropWhile _ _
  have hend : FreeBack isBlank raw.normalized.source.extension.toList := by
    rw [normalized, normalExtension_toList]
    exact (freeBack_strip _ _).of_isSuffix (List.dropWhile_suffix _)
  refine ⟨⟨hnamesp, hslash⟩, ⟨hextension, hdot, hend⟩, ⟨List.ne_nil_of_mem hroot, hroots⟩, hexclude,
    ?_⟩
  rw [normalized_eq_self_iff, normalNamespace_eq_self_iff, normalExtension_eq_self_iff]
  constructor
  · rintro ⟨⟨_, hfront, hback⟩, ⟨_, hstart, _⟩, _, _⟩
    exact ⟨hfront, hback, hstart⟩
  · rintro ⟨hfront, hback, hstart⟩
    exact ⟨⟨hslash, hfront, hback⟩, ⟨hdot, hstart, hend⟩, hroots, hexclude⟩

/-- A blank that stood before a backslash stays, and the configuration is not in normal form. -/
theorem load_normal_iff_backslash :
    let p : ConfigPlace := { disk := ⟨[], []⟩, environment := {}, project := ⟨"proj"⟩ }
    let c : Config := { target := { namesp := "Tests\\Unit " } }
    load p { namesp := some "Tests\\Unit \\" } = .ok c ∧ c.normalized ≠ c := by
  intro p c
  have hload : load p { namesp := some "Tests\\Unit \\" } = .ok c := by decide +kernel
  obtain ⟨_, _, _, _, hnormal⟩ := load_normal_iff hload
  refine ⟨hload, fun hsame => ?_⟩
  have hback := (hnormal.mp hsame).2.1
  exact absurd (hback ' ' (by decide)) (by decide)

end Scaffold.Config
