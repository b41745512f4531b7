import Scaffold.Config.Environment
import Scaffold.Proofs.Config.Settings

namespace Scaffold
set_option autoImplicit true

open Value (Distinct)

namespace Literal

def Yields (P : α → Prop) (read : List Char → Except Trouble (α × List Char)) : Prop :=
  ∀ cs a rest, read cs = .ok (a, rest) → P a

section Items

variable {P : α → Prop} {item : List Char → Except Trouble (α × List Char)}

theorem yields_itemsTo (hitem : Yields P item) (closing : Char) (n : Nat) :
    Yields (fun as => ∀ a ∈ as, P a) (itemsTo item closing n) := by
  intro cs as rest h
  induction n generalizing cs as rest with
  | zero => cases h
  | succ n ih =>
    rw [itemsTo] at h
    split at h
    · cases h
      nofun
    · obtain ⟨⟨a, between⟩, ha, h⟩ := Except.exists_of_bind_eq_ok h
      replace ha := hitem _ _ _ ha
      dsimp only at h
      split at h
      · split at h
        · obtain ⟨⟨as', _⟩, has, h⟩ := Except.exists_of_bind_eq_ok h
          cases h
          exact List.forall_mem_cons.mpr ⟨ha, ih _ _ _ has⟩
        · split at h
          · cases h
            exact List.forall_mem_singleton.mpr ha
          · cases h
      · cases h

theorem yields_items (hitem : Yields P item) (closing : Char) :
    Yields (fun as => ∀ a ∈ as, P a) (items item closing) :=
  fun cs => yields_itemsTo hitem closing (cs.length + 1) cs

end Items

theorem yields_keyValue (hvalue : Yields Distinct value) :
    Yields (·.2.Distinct) (keyValue value) := by
  intro cs pair rest h
  rw [keyValue] at h
  obtain ⟨⟨k, between⟩, _, h⟩ := Except.exists_of_bind_eq_ok h
  dsimp only at h
  split at h
  · obtain ⟨⟨v, _⟩, hv, h⟩ := Except.exists_of_bind_eq_ok h
    cases h
    exact hvalue _ _ _ hv
  · cases h

theorem distinct_foldl_put {pairs es : List (String × Value)} (hes : Distinct (.table es))
    (hpairs : ∀ pair ∈ pairs, pair.2.Distinct) :
    Distinct (.table (pairs.foldl (fun t (k, v) => Value.put k v t) es)) := by
  induction pairs generalizing es with
  | nil => exact hes
  | cons pair pairs ih =>
    rw [List.forall_mem_cons] at hpairs
    exact ih (Value.distinct_put pair.1 hpairs.1 hes) hpairs.2

theorem distinct_word (cs : List Char) : (word cs).Distinct := by
  simp only [word]
  split
  · exact .real
  · split
    · exact .integer
    · exact .text

theorem yields_valueTo (depth : Nat) : Yields Distinct (valueTo depth) := by
  induction depth with
  | zero => nofun
  | succ depth ih =>
    intro cs v rest h
    rw [valueTo] at h
    dsimp only at h
    split at h
    · cases h
      exact .boolean
    · cases h
      exact .boolean
    · obtain ⟨_, hread, h⟩ := Except.exists_of_bind_eq_ok h
      obtain ⟨⟨es, _⟩, hes, rfl⟩ := Except.exists_of_map_eq_ok hread
      cases h
      exact distinct_foldl_put Value.distinct_empty
        (yields_items (yields_keyValue ih) _ _ _ _ hes)
    · obtain ⟨_, hread, h⟩ := Except.exists_of_bind_eq_ok h
      obtain ⟨⟨vs, _⟩, hvs, rfl⟩ := Except.exists_of_map_eq_ok hread
      cases h
      exact .list (yields_items ih _ _ _ _ hvs)
    · obtain ⟨_, hread, h⟩ := Except.exists_of_bind_eq_ok h
      obtain ⟨⟨s, _⟩, _, rfl⟩ := Except.exists_of_map_eq_ok hread
      cases h
      exact .text
    · cases h
      exact .character
    · cases h
    · cases h
      exact distinct_word _

theorem distinct_parse? (h : parse? s = some v) : v.Distinct := by
  rw [parse?] at h
  split at h
  · rename_i hv
    cases h
    exact yields_valueTo _ _ _ _ hv
  · cases h
  · cases h
    exact .text

end Literal

namespace Environment

theorem splitKey_ne_nil (cs : List Char) : splitKey cs ≠ [] := by
  fun_cases splitKey cs <;> simp

theorem settingPath?_ne_nil (h : settingPath? name = some path) : path ≠ [] := by
  simp only [settingPath?] at h
  obtain ⟨_, h⟩ := Option.ite_none_right_eq_some.mp h
  obtain ⟨_, h⟩ := Option.ite_none_right_eq_some.mp h
  obtain rfl := Option.some.inj h
  exact fun hnil => splitKey_ne_nil _ (List.map_eq_nil_iff.mp hnil)

theorem properTable_setting? (h : setting? binding = .ok (some v)) : v.ProperTable := by
  rw [setting?] at h
  split at h
  · cases h
  · rename_i path hpath
    split at h
    · rename_i value hvalue
      cases h
      obtain ⟨k, ks, rfl⟩ := List.exists_cons_of_ne_nil (settingPath?_ne_nil hpath)
      exact ⟨⟨_, rfl⟩, Value.distinct_nest _ (Literal.distinct_parse? hvalue)⟩
    · cases h

theorem properTable_of_mapM {bindings : List (String × String)} {read : List (Option Value)}
    (h : bindings.mapM setting? = .ok read) :
    ∀ v, some v ∈ read → v.ProperTable := by
  induction bindings generalizing read with
  | nil =>
    cases h
    nofun
  | cons binding bindings ih =>
    rw [List.mapM_cons] at h
    obtain ⟨first, hfirst, h⟩ := Except.exists_of_bind_eq_ok h
    obtain ⟨others, hothers, h⟩ := Except.exists_of_bind_eq_ok h
    cases h
    intro v hv
    rcases List.mem_cons.mp hv with rfl | hv
    · exact properTable_setting? hfirst
    · exact ih hothers v hv

theorem properTable_settings {env : Environment} (h : env.settings = .ok v) : v.ProperTable := by
  obtain ⟨read, hread, h⟩ := Except.exists_of_bind_eq_ok h
  cases h
  refine Value.properTable_mergeAll fun v hv => ?_
  obtain ⟨_, hmem, rfl⟩ := List.mem_filterMap.mp hv
  exact properTable_of_mapM hread v hmem

end Environment

end Scaffold
