import Scaffold.Proofs.CommandLine.Options
import Scaffold.Proofs.Config.Layers
import Scaffold.Proofs.Config.Normal

namespace Scaffold
set_option autoImplicit true

open Value (HasSection Topmost)

/-- A configuration has for a setting what the highest of some layers says that say anything. -/
def Setting.TakenFrom (s : Setting α) (layers : List Value) (c : Config) : Prop :=
  ∃ v, Topmost s.key layers v ∧ s.read s.key v = .ok (s.get c)

namespace Config

variable {p : ConfigPlace} {o : Overrides} {c : Config} {layers : List Value}

theorem hasSection_overrides (o : Overrides) (h : name ∈ sections) :
    HasSection name o.toValue where
  isTable := ⟨_, rfl⟩
  sectionIsTable v hv := by
    simp only [sections, List.mem_cons, List.not_mem_nil, or_false] at h
    rcases h with rfl | rfl | rfl <;> cases hv <;> exact ⟨_, rfl⟩

theorem takenFrom_of_ofLayers (s : Setting α)
    (hlayers : ∀ l ∈ layers, HasSection s.place l ∧ l.Distinct)
    (hset : ∃ l ∈ layers, ∃ v, l.at? s.key = some v) (hc : ofLayers layers = .ok c) :
    s.TakenFrom layers c := by
  obtain ⟨l, hl, u, hu⟩ := hset
  obtain ⟨v, hv⟩ := Value.exists_at?_mergeAll hlayers hl hu
  have hread : s.read s.key v = .ok (s.get c) := by
    have hsetting := setting_of_ofValue hc s
    rwa [Value.setting, Setting.key, hv] at hsetting
  refine ⟨v, Value.topmost_of_foldl_overlay ?_ (Setting.not_isTable_of_read hread), hread⟩
  rwa [Setting.key, ← Value.at?_mergeAll hlayers]

theorem get_of_given (s : Setting α) (h : s.TakenFrom (layers ++ [o.toValue]) c)
    (hgiven : s.given o = some a) : s.get c = a := by
  obtain ⟨v, hv, hread⟩ := h
  have hwritten : o.toValue.at? s.key = some (s.write a) := by
    rw [s.at?_overrides, hgiven, Option.map_some]
  rcases Value.topmost_append_singleton_iff.mp hv with hv | ⟨hnone, _⟩
  · rw [hwritten] at hv
    rw [← Option.some.inj hv, s.read_write] at hread
    exact (Except.ok.inj hread).symm
  · cases hwritten.symm.trans hnone

/-- What is not given leaves a setting to the layers. -/
theorem takenFrom_of_not_given (s : Setting α) (h : s.TakenFrom (layers ++ [o.toValue]) c)
    (hgiven : s.given o = none) : s.TakenFrom layers c := by
  obtain ⟨v, hv, hread⟩ := h
  have hnone : o.toValue.at? s.key = none := by
    rw [s.at?_overrides, hgiven, Option.map_none]
  rcases Value.topmost_append_singleton_iff.mp hv with hv | ⟨_, hv⟩
  · cases hnone.symm.trans hv
  · exact ⟨v, hv, hread⟩

theorem load_of_layers (hlayers : p.layers = .ok layers)
    (hc : ofLayers (layers ++ [o.toValue]) = .ok c) :
    load p o = c.accept.mapError .invalid := by
  rw [load_eq, hlayers]
  change ((ofLayers (layers ++ [o.toValue])).mapError ConfigError.fault >>= _) = _
  rw [hc]
  rfl

/-- The configuration that is normalized and accepted has, for every setting on its own, what the
highest layer says that says anything: what is given for this run, else the variables, the project's
file or the one named instead of it, the user's file, or the defaults. What the arguments give to a
setting it has; an option that is not among them leaves its setting to the layers, as does a file
that is not there. Once a file is named, what another file holds does not matter unless it is the
user's own. -/
theorem load_layered (hlayers : p.layers = .ok layers)
    (hsections : ∀ l ∈ layers, ∀ name ∈ sections, ∀ v ∈ l.get? name, v.IsTable)
    (hc : ofLayers (layers ++ [o.toValue]) = .ok c) :
    load p o = c.accept.mapError .invalid ∧
    (∃ user project environment, p.Holds user project environment ∧
      layers = [toValue {}, user, project, environment]) ∧
    (∀ path, p.disk.lookUp? path = none → p.fileLayer path = .ok (.table [])) ∧
    (∀ {α : Type} (s : Setting α), s.TakenFrom (layers ++ [o.toValue]) c ∧
      (∀ a, s.given o = some a → s.get c = a) ∧ (s.given o = none → s.TakenFrom layers c)) ∧
    (∀ arguments a, CommandLine.parse arguments = .ok a → o = a.overrides →
      ∀ {α : Type} (s : Setting α),
        (∀ v, CommandLine.Gives arguments s v → s.get c = v) ∧
        ((∀ v, ¬ CommandLine.Gives arguments s v) → s.TakenFrom layers c)) ∧
    (∀ file, p.configFile = some file → ∀ d' l, p.disk.Elsewhere d' l →
      ¬ p.Consults (p.project.join file) l →
      (∀ path, p.userFile? = some path → ¬ p.Consults path l) →
      load { p with disk := d' } o = load p o) := by
  have hall : ∀ l ∈ layers ++ [o.toValue], ∀ name ∈ sections, HasSection name l ∧ l.Distinct := by
    intro l hl name hname
    rcases List.mem_append.mp hl with hl | hl
    · have hproper := ConfigPlace.properTable_layers hlayers hl
      exact ⟨⟨hproper.isTable, hsections l hl name hname⟩, hproper.distinct⟩
    · rw [List.mem_singleton.mp hl]
      exact ⟨hasSection_overrides o hname, distinct_overrides o⟩
  obtain ⟨user, project, environment, hholds, heq⟩ := ConfigPlace.holds_of_layers hlayers
  have htaken {α : Type} (s : Setting α) : s.TakenFrom (layers ++ [o.toValue]) c := by
    -- The defaults have every setting, so that some layer always decides.
    have hdefault : toValue {} ∈ layers ++ [o.toValue] := by
      rw [heq]
      exact List.mem_cons_self
    exact takenFrom_of_ofLayers s (fun l hl => hall l hl _ s.place_mem_sections)
      ⟨_, hdefault, _, s.at?_toValue {}⟩ hc
  refine ⟨load_of_layers hlayers hc, ⟨user, project, environment, hholds, heq⟩, ?_, ?_, ?_, ?_⟩
  · intro path hpath
    rw [ConfigPlace.fileLayer, hpath]
    rfl
  · intro α s
    exact ⟨htaken s, fun a => get_of_given s (htaken s), takenFrom_of_not_given s (htaken s)⟩
  · rintro arguments a hparse rfl α s
    have hgiven : ∀ v, s.given a.overrides = some v ↔ CommandLine.Gives arguments s v := fun v =>
      CommandLine.given_eq_some_iff hparse
    constructor
    · intro v hv
      exact get_of_given s (htaken s) ((hgiven v).mpr hv)
    · intro hnone
      apply takenFrom_of_not_given s (htaken s)
      apply Option.eq_none_iff_forall_ne_some.mpr
      exact fun v hv => hnone v ((hgiven v).mp hv)
  · intro file hfile d' l hd' hproject huser
    rw [← ConfigPlace.projectFile_eq_join (by rw [hfile, Option.getD_some])] at hproject
    rw [load, load, ConfigPlace.layers_elsewhere hd' hproject huser]

/-- The arguments have the roots, a variable the namespace, the file that was named the base and the
user's file the patterns; what the project's own file holds does not matter. -/
theorem load_layered_named :
    let p : ConfigPlace :=
      { disk := ⟨["w"], [(["w"], .directory),
          (["w", "testsmith.toml"], .file "[source]\nbase = \"own\"\n".toUTF8),
          (["w", "named.toml"], .file "[source]\nbase = \"src\"\nroots = [\"src\"]\n".toUTF8),
          (["u"], .directory), (["u", "testsmith"], .directory),
          (["u", "testsmith", "config.toml"],
            .file "[source]\nbase = \"user\"\nexclude = [\"X\"]\n".toUTF8)]⟩
        environment := ⟨[("XDG_CONFIG_HOME", "/u"), ("TESTSMITH_SOURCE__ROOTS", "[a, b]"),
          ("TESTSMITH_TARGET__NAMESPACE", "T")]⟩
        project := ⟨"/w"⟩
        configFile := some ⟨"named.toml"⟩ }
    let arguments := ["--root", "c", "--dry-run", "--root=d", "--method-format=camel"]
    let a : Arguments := { roots := ["c", "d"], dryRun := true, methodFormat := some .camel }
    let c : Config :=
      { source := { base := "src", roots := ["c", "d"], exclude := ["X"] }
        target := { namesp := "T", methodFormat := .camel }
        general := { dryRun := true } }
    CommandLine.parse arguments = .ok a ∧ ∃ layers, p.layers = .ok layers ∧
      (∀ l ∈ layers, ∀ name ∈ sections, ∀ v ∈ l.get? name, v.IsTable) ∧
      ofLayers (layers ++ [a.overrides.toValue]) = .ok c ∧
      Setting.roots.get c = ["c", "d"] ∧ Setting.methodFormat.get c = .camel ∧
      Setting.dryRun.get c = true ∧ Setting.namesp.TakenFrom layers c ∧
      load { p with disk := p.disk.put ["w", "testsmith.toml"] (.file "base".toUTF8) }
        a.overrides = .ok c := by
  intro p arguments a c
  have hparse : CommandLine.parse arguments = .ok a := by decide +kernel
  obtain ⟨layers, hmem, hsections, hc⟩ : ∃ layers ∈ p.layers.toOption,
      (∀ l ∈ layers, ∀ name ∈ sections, ∀ v ∈ l.get? name, v.IsTable) ∧
        ofLayers (layers ++ [a.overrides.toValue]) = .ok c := by decide +kernel
  have hlayers : p.layers = .ok layers := by
    cases hp : p.layers with
    | error e =>
      rw [hp] at hmem
      cases hmem
    | ok found =>
      rw [hp] at hmem
      exact congrArg Except.ok (Option.some.inj hmem)
  obtain ⟨hload, _, _, _, hgiven, helsewhere⟩ := load_layered hlayers hsections hc
  have hsettings {α} (s : Setting α) := hgiven arguments a hparse rfl s
  have htakes : p.disk.Takes ["w", "testsmith.toml"] := .inr ⟨_, rfl⟩
  refine ⟨hparse, layers, hlayers, hsections, hc, ?_, ?_, ?_, ?_, ?_⟩
  · exact (hsettings .roots).1 _ ⟨by decide +kernel, nofun⟩
  · exact (hsettings .methodFormat).1 .camel (by unfold CommandLine.Gives; decide +kernel)
  · exact (hsettings .dryRun).1 true ⟨by decide, rfl⟩
  · apply (hsettings .namesp).2
    intro v hv
    have hnone : (CommandLine.valuesOf "--namespace" arguments).getLast? = none := by
      decide +kernel
    cases hnone.symm.trans hv
  · rw [helsewhere _ rfl _ _ (Disk.elsewhere_put htakes _), hload]
    · decide
    · exact ConfigPlace.not_consults (by decide +kernel)
    · rintro _ ⟨⟩
      exact ConfigPlace.not_consults (by decide +kernel)

end Config

end Scaffold
