import Mathlib.Data.List.Induction
import Mathlib.Data.List.Nodup
import Scaffold.Config.Value

namespace Scaffold.Value
set_option autoImplicit true

/-- No table has a key twice. -/
inductive Distinct : Value → Prop where
  | text : Distinct (text s)
  | integer : Distinct (integer n)
  | real : Distinct (real s)
  | boolean : Distinct (boolean b)
  | character : Distinct (character c)
  | list (h : ∀ v ∈ items, Distinct v) : Distinct (list items)
  | table (hkeys : (es.map (·.1)).Nodup) (h : ∀ e ∈ es, Distinct e.2) : Distinct (table es)

def overlay : Option Value → Option Value → Option Value
  | none, v => v
  | some u, none => some u
  | some u, some v => some (merge u v)

def IsTable (v : Value) : Prop :=
  ∃ es, v = table es

instance : DecidablePred IsTable
  | table es => .isTrue ⟨es, rfl⟩
  | text _ | integer _ | real _ | boolean _ | character _ | list _ => .isFalse nofun

/-- A table in which no key is there twice, and neither in a table inside it. -/
structure ProperTable (v : Value) : Prop where
  isTable : v.IsTable
  distinct : v.Distinct

section Entries

variable {es old new : List (String × Value)}

theorem lookup_cons_eq (e : String × Value) (es : List (String × Value)) (k : String) :
    (e :: es).lookup k = if k = e.1 then some e.2 else es.lookup k := by
  obtain ⟨k', v⟩ := e
  rw [List.lookup_cons]
  by_cases hk : k = k'
  · rw [if_pos hk, beq_iff_eq.mpr hk]
  · rw [if_neg hk, beq_eq_false_iff_ne.mpr hk]

theorem lookup_put (k : String) (v : Value) (es : List (String × Value)) (k' : String) :
    (put k v es).lookup k' = if k' = k then some v else es.lookup k' := by
  induction es with
  | nil => exact lookup_cons_eq (k, v) [] k'
  | cons e es ih =>
    rw [put]
    split
    · rename_i hk
      rw [lookup_cons_eq, lookup_cons_eq, beq_iff_eq.mp hk]
      split <;> rfl
    · rename_i hk
      rw [lookup_cons_eq, lookup_cons_eq, ih]
      by_cases hk' : k' = e.1
      · have hne : k' ≠ k := fun h => hk (beq_iff_eq.mpr (hk'.symm.trans h))
        rw [if_pos hk', if_neg hne, if_pos hk']
      · rw [if_neg hk', if_neg hk']

theorem mem_put (h : e ∈ put k v es) : e = (k, v) ∨ e ∈ es := by
  induction es with
  | nil => exact .inl (List.mem_singleton.mp h)
  | cons f es ih =>
    rw [put] at h
    split at h
    · rcases List.mem_cons.mp h with rfl | h
      · exact .inl rfl
      · exact .inr (List.mem_cons_of_mem f h)
    · rcases List.mem_cons.mp h with rfl | h
      · exact .inr List.mem_cons_self
      · exact (ih h).imp_right (List.mem_cons_of_mem f)

theorem nodup_put (k : String) (v : Value) (h : (es.map (·.1)).Nodup) :
    ((put k v es).map (·.1)).Nodup := by
  induction es with
  | nil => exact List.nodup_singleton k
  | cons e es ih =>
    rw [put]
    rw [List.map_cons, List.nodup_cons] at h
    split
    · rename_i hk
      rw [beq_iff_eq] at hk
      rw [List.map_cons, List.nodup_cons, ← hk]
      exact h
    · rename_i hk
      rw [List.map_cons, List.nodup_cons]
      refine ⟨?_, ih h.2⟩
      intro hmem
      obtain ⟨f, hf, hfk⟩ := List.mem_map.mp hmem
      rcases mem_put hf with rfl | hf
      · exact hk (beq_iff_eq.mpr hfk.symm)
      · exact h.1 (List.mem_map.mpr ⟨f, hf, hfk⟩)

theorem lookup_eq_none (h : k ∉ es.map (·.1)) : es.lookup k = none := by
  rw [List.lookup_eq_none_iff]
  intro e he
  rw [bne_iff_ne]
  rintro rfl
  exact h (List.mem_map_of_mem he)

theorem mem_of_lookup {es : List (String × α)} (h : es.lookup k = some v) : (k, v) ∈ es := by
  obtain ⟨_, _, rfl, _⟩ := List.lookup_eq_some_iff.mp h
  exact List.mem_append_right _ List.mem_cons_self

theorem lookup_mergeEntries (old : List (String × Value)) (h : (new.map (·.1)).Nodup)
    (k : String) : (mergeEntries old new).lookup k = overlay (old.lookup k) (new.lookup k) := by
  induction new generalizing old with
  | nil =>
    rw [mergeEntries]
    cases old.lookup k <;> rfl
  | cons e new ih =>
    obtain ⟨k', v⟩ := e
    rw [List.map_cons, List.nodup_cons] at h
    rw [mergeEntries, ih _ h.2, lookup_put, lookup_cons_eq]
    by_cases hk : k = k'
    · subst hk
      rw [if_pos rfl, if_pos rfl, lookup_eq_none h.1]
      cases old.lookup k <;> rfl
    · rw [if_neg hk, if_neg hk]

end Entries

section Merge

variable {u v : Value} {layers : List Value}

theorem Distinct.entry (h : Distinct (Value.table es)) (he : e ∈ es) : Distinct e.2 := by
  cases h with
  | table _ h => exact h e he

theorem Distinct.keys (h : Distinct (Value.table es)) : (es.map (·.1)).Nodup := by
  cases h with
  | table hkeys _ => exact hkeys

theorem distinct_empty : Distinct (table []) :=
  .table List.nodup_nil nofun

theorem properTable_empty : ProperTable (table []) :=
  ⟨⟨[], rfl⟩, distinct_empty⟩

theorem distinct_put (k : String) (hv : Distinct v) (h : Distinct (table es)) :
    Distinct (table (put k v es)) := by
  refine .table (nodup_put k v h.keys) fun e he => ?_
  rcases mem_put he with rfl | he
  · exact hv
  · exact h.entry he

theorem merge_eq_or (u v : Value) : merge u v = v ∨
    ∃ old new, u = table old ∧ v = table new ∧ merge u v = table (mergeEntries old new) := by
  cases u with
  | table old =>
    cases v with
    | table new => exact .inr ⟨old, new, rfl, rfl, by rw [merge]⟩
    | _ => exact .inl (by rw [merge]; nofun)
  | _ => exact .inl (by rw [merge]; nofun)

theorem merge_of_not_isTable (h : ¬ (merge u v).IsTable) : merge u v = v := by
  rcases merge_eq_or u v with hv | ⟨old, new, _, _, htable⟩
  · exact hv
  · exact absurd ⟨_, htable⟩ h

/-- By induction on both values at once, as they are merged. -/
theorem Distinct.merge (hu : Distinct u) (hv : Distinct v) : Distinct (Value.merge u v) := by
  refine Value.merge.induct (fun u v => Distinct u → Distinct v → Distinct (Value.merge u v))
    (fun old new => Distinct (Value.table old) → Distinct (Value.table new) →
      Distinct (Value.table (mergeEntries old new))) ?tables ?other ?nil ?cons u v hu hv
  case tables =>
    intro old new ih hu hv
    rw [Value.merge]
    exact ih hu hv
  case other =>
    intro u v hother hu hv
    rw [Value.merge]
    · exact hv
    · exact hother
  case nil =>
    intro old ho hn
    rw [mergeEntries]
    exact ho
  case cons =>
    intro old k v rest ihv ih ho hn
    rw [mergeEntries]
    have hv := hn.entry List.mem_cons_self
    refine ih (distinct_put k ?_ ho) ?_
    · split
      · rename_i u hu
        exact ihv u (ho.entry (mem_of_lookup hu)) hv
      · exact hv
    · exact .table (List.nodup_cons.mp hn.keys).2
        fun e he => hn.entry (List.mem_cons_of_mem _ he)

theorem distinct_foldl_merge (hu : Distinct u) (h : ∀ v ∈ layers, Distinct v) :
    Distinct (layers.foldl Value.merge u) := by
  induction layers generalizing u with
  | nil => exact hu
  | cons v layers ih =>
    rw [List.forall_mem_cons] at h
    exact ih (hu.merge h.1) h.2

theorem distinct_mergeAll (h : ∀ v ∈ layers, Distinct v) : Distinct (mergeAll layers) :=
  distinct_foldl_merge distinct_empty h

theorem isTable_mergeAll (h : ∀ v ∈ layers, v.IsTable) : (mergeAll layers).IsTable := by
  induction layers using List.reverseRecOn with
  | nil => exact ⟨[], rfl⟩
  | append_singleton layers l ih =>
    rw [List.forall_mem_append, List.forall_mem_singleton] at h
    obtain ⟨old, hold⟩ := ih h.1
    obtain ⟨new, rfl⟩ := h.2
    refine ⟨mergeEntries old new, ?_⟩
    rw [mergeAll, List.foldl_append, ← mergeAll, hold, List.foldl_cons, List.foldl_nil, merge]

theorem properTable_mergeAll (h : ∀ v ∈ layers, v.ProperTable) :
    (mergeAll layers).ProperTable :=
  ⟨isTable_mergeAll fun v hv => (h v hv).isTable, distinct_mergeAll fun v hv => (h v hv).distinct⟩

theorem distinct_nest (path : List String) (hv : Distinct v) : Distinct (nest path v) := by
  induction path with
  | nil => exact hv
  | cons k path ih =>
    exact .table (List.nodup_singleton k) fun e he => by
      obtain rfl := List.mem_singleton.mp he
      exact ih

end Merge

section Layers

/-- A table in which a section, if it is there, is a table too. -/
structure HasSection (name : String) (v : Value) : Prop where
  isTable : v.IsTable
  sectionIsTable : ∀ s ∈ v.get? name, s.IsTable

/-- In the highest of some layers that have a value at a place, this is the value. -/
def Topmost (key : List String) (layers : List Value) (v : Value) : Prop :=
  ∃ below layer above, layers = below ++ layer :: above ∧ layer.at? key = some v ∧
    ∀ l ∈ above, l.at? key = none

variable {u v : Value} {layers : List Value}

theorem overlay_none (u : Option Value) : overlay u none = u := by
  cases u <;> rfl

theorem at?_pair (name key : String) (v : Value) :
    v.at? [name, key] = (v.get? name).bind (get? key) := by
  rw [at?]
  congr 1
  funext s
  rw [at?]
  cases s.get? key <;> rfl

theorem get?_merge (hu : HasSection name u) (hv : HasSection name v) (hd : Distinct v) :
    (merge u v).get? name = overlay (u.get? name) (v.get? name) := by
  obtain ⟨old, rfl⟩ := hu.isTable
  obtain ⟨new, rfl⟩ := hv.isTable
  rw [merge]
  exact lookup_mergeEntries old hd.keys name

theorem HasSection.merge (hu : HasSection name u) (hv : HasSection name v) (hd : Distinct v) :
    HasSection name (Value.merge u v) where
  isTable := by
    obtain ⟨old, rfl⟩ := hu.isTable
    obtain ⟨new, rfl⟩ := hv.isTable
    exact ⟨mergeEntries old new, by rw [Value.merge]⟩
  sectionIsTable s hs := by
    rw [get?_merge hu hv hd] at hs
    cases hnew : v.get? name with
    | none =>
      rw [hnew, overlay_none] at hs
      exact hu.sectionIsTable s hs
    | some t =>
      obtain ⟨new, rfl⟩ := hv.sectionIsTable t hnew
      rw [hnew] at hs
      cases hold : u.get? name with
      | none =>
        rw [hold] at hs
        exact ⟨new, (Option.some.inj hs).symm⟩
      | some t =>
        obtain ⟨old, rfl⟩ := hu.sectionIsTable t hold
        rw [hold, overlay, Value.merge] at hs
        exact ⟨_, (Option.some.inj hs).symm⟩

theorem Distinct.get? (h : Distinct v) (hs : v.get? name = some s) : Distinct s := by
  cases v with
  | table es => exact h.entry (mem_of_lookup hs)
  | _ => cases hs

theorem at?_merge (hu : HasSection name u) (hv : HasSection name v) (hd : Distinct v)
    (key : String) :
    (merge u v).at? [name, key] = overlay (u.at? [name, key]) (v.at? [name, key]) := by
  rw [at?_pair, at?_pair, at?_pair, get?_merge hu hv hd]
  cases hnew : v.get? name with
  | none => rw [overlay_none, Option.bind_none, overlay_none]
  | some t =>
    obtain ⟨new, rfl⟩ := hv.sectionIsTable t hnew
    cases hold : u.get? name with
    | none => rfl
    | some t =>
      obtain ⟨old, rfl⟩ := hu.sectionIsTable t hold
      rw [overlay, merge, Option.bind_some, Option.bind_some, Option.bind_some]
      exact lookup_mergeEntries old (hd.get? hnew).keys key

theorem at?_foldl_merge (hu : HasSection name u)
    (h : ∀ v ∈ layers, HasSection name v ∧ Distinct v) (key : String) :
    (layers.foldl merge u).at? [name, key] =
      (layers.map (·.at? [name, key])).foldl overlay (u.at? [name, key]) := by
  induction layers generalizing u with
  | nil => rfl
  | cons v layers ih =>
    rw [List.forall_mem_cons] at h
    rw [List.foldl_cons, ih (hu.merge h.1.1 h.1.2) h.2, at?_merge hu h.1.1 h.1.2]
    rfl

theorem hasSection_empty (name : String) : HasSection name (table []) where
  isTable := ⟨[], rfl⟩
  sectionIsTable := nofun

theorem at?_mergeAll (h : ∀ v ∈ layers, HasSection name v ∧ Distinct v) (key : String) :
    (mergeAll layers).at? [name, key] = (layers.map (·.at? [name, key])).foldl overlay none :=
  at?_foldl_merge (hasSection_empty name) h key

theorem topmost_append_singleton_iff : Topmost key (layers ++ [l]) v ↔
    l.at? key = some v ∨ l.at? key = none ∧ Topmost key layers v := by
  constructor
  · rintro ⟨below, layer, above, hsplit, hlayer, habove⟩
    rcases List.eq_nil_or_concat above with rfl | ⟨above, top, rfl⟩
    · obtain ⟨_, rfl⟩ := List.append_singleton_inj.mp hsplit
      exact .inl hlayer
    · rw [List.concat_eq_append] at hsplit habove
      rw [← List.cons_append, ← List.append_assoc] at hsplit
      obtain ⟨rfl, rfl⟩ := List.append_singleton_inj.mp hsplit
      rw [List.forall_mem_append, List.forall_mem_singleton] at habove
      exact .inr ⟨habove.2, below, layer, above, rfl, hlayer, habove.1⟩
  · rintro (hl | ⟨hl, below, layer, above, rfl, hlayer, habove⟩)
    · exact ⟨layers, l, [], rfl, hl, nofun⟩
    · refine ⟨below, layer, above ++ [l], by simp, hlayer, ?_⟩
      rw [List.forall_mem_append, List.forall_mem_singleton]
      exact ⟨habove, hl⟩

theorem topmost_of_foldl_overlay (h : (layers.map (·.at? key)).foldl overlay none = some v)
    (hv : ¬ v.IsTable) : Topmost key layers v := by
  -- From the top down: the first layer with a value is the one that decides.
  induction layers using List.reverseRecOn with
  | nil => cases h
  | append_singleton layers l ih =>
    rw [List.map_append, List.foldl_append, List.map_singleton, List.foldl_cons,
      List.foldl_nil] at h
    rw [topmost_append_singleton_iff]
    cases hl : l.at? key with
    | none =>
      rw [hl, overlay_none] at h
      exact .inr ⟨rfl, ih h⟩
    | some w =>
      rw [hl] at h
      cases hbelow : (layers.map (·.at? key)).foldl overlay none with
      | none =>
        rw [hbelow] at h
        exact .inl h
      | some u =>
        rw [hbelow, overlay, Option.some.injEq] at h
        rw [← h, merge_of_not_isTable (h.symm ▸ hv)]
        exact .inl rfl

theorem overlay_eq_none_iff {u v : Option Value} : overlay u v = none ↔ u = none ∧ v = none := by
  cases u <;> cases v <;> simp [overlay]

theorem foldl_overlay_eq_none_iff {us : List (Option Value)} {w : Option Value} :
    us.foldl overlay w = none ↔ w = none ∧ ∀ u ∈ us, u = none := by
  induction us generalizing w with
  | nil => simp
  | cons u us ih => rw [List.foldl_cons, ih, overlay_eq_none_iff, List.forall_mem_cons, and_assoc]

/-- A place where some layer has a value is not empty in the end. -/
theorem exists_at?_mergeAll (h : ∀ v ∈ layers, HasSection name v ∧ Distinct v)
    (hl : l ∈ layers) (hset : l.at? [name, key] = some v) :
    ∃ w, (mergeAll layers).at? [name, key] = some w := by
  rw [← Option.ne_none_iff_exists', at?_mergeAll h, Ne, foldl_overlay_eq_none_iff]
  rintro ⟨_, hnone⟩
  have hl := hnone _ (List.mem_map.mpr ⟨l, hl, rfl⟩)
  rw [hset] at hl
  cases hl

end Layers

end Scaffold.Value
