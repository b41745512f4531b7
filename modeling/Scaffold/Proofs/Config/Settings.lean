import Scaffold.Config.Extraction
import Scaffold.Proofs.Config.Merging

namespace Scaffold
set_option autoImplicit true

open Value (Distinct)

theorem Except.exists_of_bind_eq_ok {x : Except ε α} {f : α → Except ε β} (h : (x >>= f) = .ok b) :
    ∃ a, x = .ok a ∧ f a = .ok b := by
  cases x with
  | error e => cases h
  | ok a => exact ⟨a, rfl, h⟩

theorem Except.exists_of_map_eq_ok {x : Except ε α} {f : α → β} (h : x.map f = .ok b) :
    ∃ a, x = .ok a ∧ f a = b := by
  cases x with
  | error e => cases h
  | ok a => exact ⟨a, rfl, Except.ok.inj h⟩

theorem Except.mapError_eq_ok_iff {x : Except ε α} {f : ε → δ} :
    x.mapError f = .ok a ↔ x = .ok a := by
  cases x <;> simp [Except.mapError]

def Config.sections : List String := ["source", "target", "general"]

/-- The settings of a configuration, each with the type of its values. -/
inductive Setting : Type → Type where
  | base : Setting String
  | roots : Setting (List String)
  | exclude : Setting (List String)
  | extension : Setting String
  | namesp : Setting String
  | directory : Setting String
  | template : Setting String
  | methodFormat : Setting MethodFormat
  | dryRun : Setting Bool
  | parallel : Setting Bool

namespace Setting

def place : Setting α → String
  | base | roots | exclude | extension => "source"
  | namesp | directory | template | methodFormat => "target"
  | dryRun | parallel => "general"

def name : Setting α → String
  | base => "base"
  | roots => "roots"
  | exclude => "exclude"
  | extension => "extension"
  | namesp => "namespace"
  | directory => "directory"
  | template => "template"
  | methodFormat => "method_format"
  | dryRun => "dry_run"
  | parallel => "parallel"

def key (s : Setting α) : List String :=
  [s.place, s.name]

def read : Setting α → List String → Value → Except SettingFault α
  | base | extension | namesp | directory | template => Value.asText
  | roots | exclude => Value.asTextList
  | methodFormat => Value.asMethodFormat
  | dryRun | parallel => Value.asBoolean

def write : Setting α → α → Value
  | base | extension | namesp | directory | template => .text
  | roots | exclude => fun ss => .list (ss.map .text)
  | methodFormat => fun f => .text f.word
  | dryRun | parallel => .boolean

/-- What a configuration has for a setting. -/
def get : Setting α → Config → α
  | base => (·.source.base)
  | roots => (·.source.roots)
  | exclude => (·.source.exclude)
  | extension => (·.source.extension)
  | namesp => (·.target.namesp)
  | directory => (·.target.directory)
  | template => (·.target.template)
  | methodFormat => (·.target.methodFormat)
  | dryRun => (·.general.dryRun)
  | parallel => (·.general.parallel)

/-- What is given for a setting for one run only. -/
def given : Setting α → Overrides → Option α
  | base => (·.base)
  | roots => (·.roots)
  | exclude => (·.exclude)
  | extension => fun _ => none
  | namesp => (·.namesp)
  | directory => (·.directory)
  | template => (·.template)
  | methodFormat => (·.methodFormat)
  | dryRun => (·.dryRun)
  | parallel => (·.parallel)

theorem place_mem_sections (s : Setting α) : s.place ∈ Config.sections := by
  cases s <;> decide

theorem not_isTable_of_read {s : Setting α} {path : List String} (h : s.read path v = .ok a) :
    ¬ v.IsTable := by
  rintro ⟨es, rfl⟩
  cases s with
  | methodFormat =>
    rw [read, Value.asMethodFormat] at h
    split at h
    · split at h <;> cases h
    · cases h
  | _ => cases h

theorem asTexts_map (path : List String) (i : Nat) (ss : List String) :
    Value.asTexts path i (ss.map .text) = .ok ss := by
  induction ss generalizing i with
  | nil => rfl
  | cons s ss ih =>
    rw [List.map_cons, Value.asTexts, ih]
    rfl

theorem read_write (s : Setting α) (path : List String) (a : α) :
    s.read path (s.write a) = .ok a := by
  cases s with
  | roots => exact asTexts_map path 0 a
  | exclude => exact asTexts_map path 0 a
  | methodFormat => cases a <;> rfl
  | _ => rfl

theorem at?_toValue (s : Setting α) (c : Config) :
    c.toValue.at? s.key = some (s.write (s.get c)) := by
  cases s <;> rfl

theorem lookup_entry_append (key : String) (wrap : α → Value) (a : Option α)
    (es : List (String × Value)) (k : String) :
    (Overrides.entry key wrap a ++ es).lookup k =
      if k = key then (a.map wrap).or (es.lookup k) else es.lookup k := by
  cases a with
  | none => simp [Overrides.entry]
  | some a =>
    change ((key, wrap a) :: es).lookup k = _
    rw [Value.lookup_cons_eq]
    rfl

theorem lookup_entry (key : String) (wrap : α → Value) (a : Option α) (k : String) :
    (Overrides.entry key wrap a).lookup k = if k = key then a.map wrap else none := by
  have happend := lookup_entry_append key wrap a [] k
  rwa [List.append_nil, List.lookup_nil, Option.or_none] at happend

theorem at?_overrides (s : Setting α) (o : Overrides) :
    o.toValue.at? s.key = (s.given o).map s.write := by
  rw [key, Value.at?_pair]
  cases s <;> simp [place, name, given, write, Overrides.toValue, Value.get?, Value.lookup_cons_eq,
    lookup_entry_append, lookup_entry]

end Setting

section Written

theorem distinct_texts (ss : List String) : Distinct (.list (ss.map .text)) := by
  refine .list fun v hv => ?_
  obtain ⟨_, _, rfl⟩ := List.mem_map.mp hv
  exact .text

theorem distinct_cons_iff : Distinct (.table ((k, v) :: es)) ↔
    v.Distinct ∧ k ∉ es.map (·.1) ∧ Distinct (.table es) := by
  constructor
  · intro h
    have hkeys := List.nodup_cons.mp h.keys
    exact ⟨h.entry List.mem_cons_self, hkeys.1,
      .table hkeys.2 fun e he => h.entry (List.mem_cons_of_mem _ he)⟩
  · rintro ⟨hv, hk, h⟩
    exact .table (List.nodup_cons.mpr ⟨hk, h.keys⟩)
      (List.forall_mem_cons.mpr ⟨hv, fun _ => h.entry⟩)

theorem distinct_entry_append (hwrap : ∀ a, (wrap a).Distinct) (hk : k ∉ es.map (·.1))
    (h : Distinct (.table es)) : Distinct (.table (Overrides.entry k wrap given ++ es)) := by
  cases given with
  | none => exact h
  | some a => exact distinct_cons_iff.mpr ⟨hwrap a, hk, h⟩

theorem distinct_entry (hwrap : ∀ a, (wrap a).Distinct) :
    Distinct (.table (Overrides.entry k wrap given)) := by
  cases given with
  | none => exact Value.distinct_empty
  | some a => exact distinct_cons_iff.mpr ⟨hwrap a, List.not_mem_nil, Value.distinct_empty⟩

theorem distinct_toValue (c : Config) : c.toValue.Distinct := by
  simp [Config.toValue, distinct_cons_iff, Value.distinct_empty, distinct_texts, Distinct.text,
    Distinct.boolean]

theorem distinct_overrides (o : Overrides) : o.toValue.Distinct := by
  have hsource : Distinct (.table (Overrides.entry "base" .text o.base ++
      (Overrides.entry "roots" (fun ss => .list (ss.map .text)) o.roots ++
        Overrides.entry "exclude" (fun ss => .list (ss.map .text)) o.exclude))) := by
    refine distinct_entry_append (fun _ => .text) ?_ <|
      distinct_entry_append distinct_texts ?_ <| distinct_entry distinct_texts <;>
    simp [Overrides.entry]
  have htarget : Distinct (.table (Overrides.entry "namespace" .text o.namesp ++
      (Overrides.entry "directory" .text o.directory ++
        (Overrides.entry "template" .text o.template ++
          Overrides.entry "method_format" (fun f => .text f.word) o.methodFormat)))) := by
    refine distinct_entry_append (fun _ => .text) ?_ <|
      distinct_entry_append (fun _ => .text) ?_ <|
      distinct_entry_append (fun _ => .text) ?_ <| distinct_entry fun _ => .text <;>
    simp [Overrides.entry]
  have hgeneral : Distinct (.table (Overrides.entry "dry_run" .boolean o.dryRun ++
      Overrides.entry "parallel" .boolean o.parallel)) := by
    refine distinct_entry_append (fun _ => .boolean) ?_ <| distinct_entry fun _ => .boolean
    simp [Overrides.entry]
  simp only [Overrides.toValue, List.append_assoc, distinct_cons_iff]
  exact ⟨hsource, by simp, htarget, by simp, hgeneral, by simp, Value.distinct_empty⟩

end Written

theorem Config.setting_of_ofValue {v : Value} {c : Config} (h : Config.ofValue v = .ok c)
    (s : Setting α) : v.setting s.key s.read (s.get {}) = .ok (s.get c) := by
  rw [Config.ofValue] at h
  obtain ⟨_, _, h⟩ := Except.exists_of_bind_eq_ok h
  obtain ⟨dryRun, hdryRun, h⟩ := Except.exists_of_bind_eq_ok h
  obtain ⟨parallel, hparallel, h⟩ := Except.exists_of_bind_eq_ok h
  obtain ⟨_, _, h⟩ := Except.exists_of_bind_eq_ok h
  obtain ⟨base, hbase, h⟩ := Except.exists_of_bind_eq_ok h
  obtain ⟨exclude, hexclude, h⟩ := Except.exists_of_bind_eq_ok h
  obtain ⟨extension, hextension, h⟩ := Except.exists_of_bind_eq_ok h
  obtain ⟨roots, hroots, h⟩ := Except.exists_of_bind_eq_ok h
  obtain ⟨_, _, h⟩ := Except.exists_of_bind_eq_ok h
  obtain ⟨directory, hdirectory, h⟩ := Except.exists_of_bind_eq_ok h
  obtain ⟨methodFormat, hmethodFormat, h⟩ := Except.exists_of_bind_eq_ok h
  obtain ⟨namesp, hnamesp, h⟩ := Except.exists_of_bind_eq_ok h
  obtain ⟨template, htemplate, h⟩ := Except.exists_of_bind_eq_ok h
  cases h
  cases s <;> assumption

end Scaffold
