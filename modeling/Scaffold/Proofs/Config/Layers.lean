import Scaffold.Config.Layers
import Scaffold.Proofs.Config.Variables
import Scaffold.Proofs.Disk.Elsewhere
import Scaffold.Proofs.Toml.Keys

namespace Scaffold.ConfigPlace
set_option autoImplicit true

variable {p : ConfigPlace}

def userLayer (p : ConfigPlace) : Except ConfigError Value :=
  match p.userFile? with
  | some path => p.fileLayer path
  | none => .ok (.table [])

theorem layers_eq (p : ConfigPlace) : p.layers = (do
    let environment ← p.environment.settings.mapError .environment
    let user ← p.userLayer
    let project ← p.fileLayer p.projectFile
    return [Config.toValue {}, user, project, environment]) := by
  rw [layers, userLayer]
  cases p.environment.settings with
  | error cause => rfl
  | ok environment => cases p.userFile? <;> rfl

/-- What the user's own file holds, what the project's file or the one named instead of it holds,
and what the variables hold. -/
structure Holds (p : ConfigPlace) (user project environment : Value) : Prop where
  userFile : ∀ path, p.userFile? = some path → p.fileLayer path = .ok user
  noUserFile : p.userFile? = none → user = .table []
  namedFile : ∀ file, p.configFile = some file → p.fileLayer (p.project.join file) = .ok project
  ownFile : p.configFile = none → p.fileLayer (p.project.join projectFileName) = .ok project
  environment : p.environment.settings = .ok environment

theorem projectFile_eq_join (h : p.configFile.getD projectFileName = file) :
    p.projectFile = p.project.join file := by
  rw [projectFile, h]

theorem holds_of_layers {layers : List Value} (h : p.layers = .ok layers) :
    ∃ user project environment, p.Holds user project environment ∧
      layers = [Config.toValue {}, user, project, environment] := by
  rw [layers_eq] at h
  obtain ⟨environment, henvironment, h⟩ := Except.exists_of_bind_eq_ok h
  obtain ⟨user, huser, h⟩ := Except.exists_of_bind_eq_ok h
  obtain ⟨project, hproject, ⟨⟩⟩ := Except.exists_of_bind_eq_ok h
  refine ⟨user, project, environment, ⟨?_, ?_, ?_, ?_, ?_⟩, rfl⟩
  · intro path hpath
    rwa [userLayer, hpath] at huser
  · intro hpath
    rw [userLayer, hpath] at huser
    exact (Except.ok.inj huser).symm
  · intro file hfile
    rwa [← projectFile_eq_join (by rw [hfile, Option.getD_some])]
  · intro hfile
    rwa [← projectFile_eq_join (by rw [hfile, Option.getD_none])]
  · exact Except.mapError_eq_ok_iff.mp henvironment

theorem properTable_fileLayer (h : p.fileLayer path = .ok v) : v.ProperTable := by
  rw [fileLayer] at h
  split at h
  · cases h
    exact Value.properTable_empty
  · split at h
    · cases h
      exact Value.properTable_empty
    · split at h
      · rename_i w hw
        cases h
        obtain ⟨_, _, hparsed⟩ := Option.bind_eq_some_iff.mp hw
        exact Toml.properTable_parse? hparsed
      · cases h

theorem properTable_layers {layers : List Value} (h : p.layers = .ok layers) (hl : l ∈ layers) :
    l.ProperTable := by
  obtain ⟨user, project, environment, hholds, rfl⟩ := holds_of_layers h
  have huser : user.ProperTable := by
    cases hpath : p.userFile? with
    | none =>
      rw [hholds.noUserFile hpath]
      exact Value.properTable_empty
    | some path => exact properTable_fileLayer (hholds.userFile path hpath)
  have hproject : project.ProperTable := by
    cases hfile : p.configFile with
    | none => exact properTable_fileLayer (hholds.ownFile hfile)
    | some file => exact properTable_fileLayer (hholds.namedFile file hfile)
  have hvariables := Environment.properTable_settings hholds.environment
  have hall : ∀ l ∈ [Config.toValue {}, user, project, environment], l.ProperTable := by
    rw [List.forall_mem_cons, List.forall_mem_cons, List.forall_mem_cons,
      List.forall_mem_singleton]
    exact ⟨⟨⟨_, rfl⟩, distinct_toValue _⟩, huser, hproject, hvariables⟩
  exact hall l hl

section Elsewhere

/-- Looking for a file comes to a place: its path leads there, or one does under which it is tried
then, and no path that is tried earlier has a file. -/
def Consults (p : ConfigPlace) (path : Path) (l : Location) : Prop :=
  Disk.EndsAt (p.disk.find path true) l ∨
    ∃ before q after, p.disk.ancestors.map (·.join path) = before ++ q :: after ∧
      (∀ r ∈ before, p.disk.isFile r = false) ∧ Disk.EndsAt (p.disk.find q true) l

theorem not_consults (hpath : ∀ q ∈ path :: p.disk.ancestors.map (·.join path),
    ¬ Disk.EndsAt (p.disk.find q true) l) : ¬ p.Consults path l := by
  rw [List.forall_mem_cons] at hpath
  rintro (hends | ⟨before, q, after, hsplit, _, hends⟩)
  · exact hpath.1 hends
  · refine hpath.2 q ?_ hends
    rw [hsplit]
    exact List.mem_append_right _ List.mem_cons_self

theorem find?_congr_before {P Q : α → Bool} {as : List α}
    (h : ∀ before a after, as = before ++ a :: after → (∀ b ∈ before, P b = false) → Q a = P a) :
    as.find? Q = as.find? P := by
  induction as with
  | nil => rfl
  | cons a as ih =>
    rw [List.find?_cons, List.find?_cons, h [] a as rfl nofun]
    cases ha : P a with
    | true => rfl
    | false =>
      refine ih fun before b after has hbefore => h (a :: before) b after (by rw [has]; rfl) ?_
      exact List.forall_mem_cons.mpr ⟨ha, hbefore⟩

theorem fileLayer_elsewhere (h : p.disk.Elsewhere d' l) (hp : ¬ p.Consults path l) :
    fileLayer { p with disk := d' } path = p.fileLayer path := by
  rw [Consults, not_or] at hp
  have hpath : d'.lookUp? path = p.disk.lookUp? path := h.lookUp? hp.1
  have htried : ∀ before q after, p.disk.ancestors.map (·.join path) = before ++ q :: after →
      (∀ r ∈ before, p.disk.isFile r = false) → d'.lookUp? q = p.disk.lookUp? q :=
    fun before q after hsplit hbefore =>
      h.lookUp? fun hends => hp.2 ⟨before, q, after, hsplit, hbefore, hends⟩
  have hresolve : resolve? { p with disk := d' } path = p.resolve? path := by
    have hancestors : d'.ancestors = p.disk.ancestors := by
      rw [Disk.ancestors, h.working, Disk.ancestors]
    rw [resolve?, resolve?, hancestors]
    refine find?_congr_before fun before q after hsplit hbefore => ?_
    rw [Disk.isFile, Disk.isFile, htried before q after hsplit hbefore]
  rw [fileLayer, fileLayer, hresolve, hpath]
  split
  · rfl
  · cases hfile : p.resolve? path with
    | none => rfl
    | some file =>
      obtain ⟨_, before, after, hsplit, hbefore⟩ := List.find?_eq_some_iff_append.mp hfile
      have hread := htried before file after hsplit fun r hr => by simpa using hbefore r hr
      simp only [Disk.toOption_readText, hread]

/-- A file to which looking for configuration files does not come does not matter to the layers. -/
theorem layers_elsewhere (h : p.disk.Elsewhere d' l) (hproject : ¬ p.Consults p.projectFile l)
    (huser : ∀ path, p.userFile? = some path → ¬ p.Consults path l) :
    layers { p with disk := d' } = p.layers := by
  have huserLayer : userLayer { p with disk := d' } = p.userLayer := by
    have huserFile : userFile? { p with disk := d' } = p.userFile? := rfl
    rw [userLayer, userLayer, huserFile]
    split
    · rename_i path hpath
      exact fileLayer_elsewhere h (huser path hpath)
    · rfl
  have hprojectFile : projectFile { p with disk := d' } = p.projectFile := rfl
  rw [layers_eq, layers_eq, huserLayer, hprojectFile, fileLayer_elsewhere h hproject]

end Elsewhere

end Scaffold.ConfigPlace
