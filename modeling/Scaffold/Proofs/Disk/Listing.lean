import Mathlib.Data.List.Nodup
import Mathlib.Data.List.Perm.Subperm
import Scaffold.Proofs.Disk.Walk

namespace Scaffold
set_option autoImplicit true

def Visible (n : String) : Prop :=
  n.toList.head? ≠ some '.'

namespace Disk

/-- The names of all places are such as can stand between slashes. -/
def Named (d : Disk) : Prop :=
  ∀ x ∈ d.entries, ∀ n ∈ x.1, n ≠ "" ∧ '/' ∉ n.toList

instance (d : Disk) : Decidable d.Named :=
  inferInstanceAs (Decidable (∀ x ∈ d.entries, ∀ n ∈ x.1, _))

/-- Visible names lead from a place through directories to a file. -/
inductive Shows (d : Disk) : Location → List String → Prop where
  | file (hv : Visible n) (h : d.get? (l ++ [n]) = some (.file content)) : Shows d l [n]
  | step (hv : Visible n) (h : d.get? (l ++ [n]) = some .directory)
      (hs : Shows d (l ++ [n]) ns) : Shows d l (n :: ns)

variable {d : Disk}

theorem exists_entry (h : d.get? (l ++ [n]) = some e) : ∃ x ∈ d.entries, x.1 = l ++ [n] := by
  rw [get?, if_neg (by simp)] at h
  obtain ⟨front, back, hs, _⟩ := List.lookup_eq_some_iff.mp h
  exact ⟨(l ++ [n], e), by simp [hs], rfl⟩

theorem mem_names : n ∈ d.names l ↔ ∃ x ∈ d.entries, x.1 = l ++ [n] := by
  rw [names, List.mem_filterMap]
  refine exists_congr fun x => and_congr_right fun _ => ?_
  constructor
  · intro h
    split at h
    · rename_i hx
      simp only [Bool.and_eq_true, beq_iff_eq, List.isPrefixOf_iff_prefix] at hx
      obtain ⟨hlen, tail, hx⟩ := hx
      rw [← hx, List.length_append, Nat.add_left_cancel_iff] at hlen
      obtain ⟨m, rfl⟩ := List.length_eq_one_iff.mp hlen
      rw [← hx, List.getLast?_concat] at h
      rw [← hx, Option.some.inj h]
    · cases h
  · intro h
    simp [h]

theorem mem_filesTo {depth : Nat} {p q : Path} : q ∈ d.filesTo depth l p ↔
    ∃ ns, d.Shows l ns ∧ ns.length ≤ depth ∧ q = ns.foldl (fun r n => r.join ⟨n⟩) p := by
  induction depth generalizing l p with
  | zero =>
    rw [filesTo]
    refine ⟨nofun, ?_⟩
    rintro ⟨ns, hs, hlen, _⟩
    cases hs <;> simp at hlen
  | succ depth ih =>
    rw [filesTo, List.mem_flatMap]
    constructor
    · rintro ⟨n, _, hq⟩
      split at hq
      · cases hq
      · rename_i hv
        rw [beq_iff_eq] at hv
        split at hq
        · rename_i content hget
          obtain rfl := List.mem_singleton.mp hq
          exact ⟨[n], .file hv hget, Nat.succ_le_succ (Nat.zero_le _), rfl⟩
        · rename_i hget
          obtain ⟨ns, hs, hlen, rfl⟩ := ih.mp hq
          exact ⟨n :: ns, .step hv hget hs, Nat.succ_le_succ hlen, rfl⟩
        · cases hq
    · rintro ⟨ns, hs, hlen, rfl⟩
      cases hs with
      | @file n _ content hv hget =>
        refine ⟨n, mem_names.mpr (exists_entry hget), ?_⟩
        rw [if_neg fun h => hv (beq_iff_eq.mp h), hget]
        exact List.mem_singleton_self _
      | @step n _ ns hv hget hs =>
        refine ⟨n, mem_names.mpr (exists_entry hget), ?_⟩
        rw [if_neg fun h => hv (beq_iff_eq.mp h), hget]
        exact ih.mpr ⟨ns, hs, Nat.le_of_succ_le_succ hlen, rfl⟩

theorem Shows.exists_entry (h : d.Shows l ns) :
    ∀ k < ns.length, ∃ x ∈ d.entries, x.1 = l ++ ns.take (k + 1) := by
  induction h with
  | file _ hget =>
    intro k hk
    obtain rfl : k = 0 := by simpa using hk
    exact Disk.exists_entry hget
  | step _ hget _ ih =>
    intro k hk
    cases k with
    | zero => exact Disk.exists_entry hget
    | succ k =>
      obtain ⟨x, hx, he⟩ := ih k (Nat.lt_of_succ_lt_succ hk)
      exact ⟨x, hx, by rw [he, List.take_succ_cons, List.append_assoc]; rfl⟩

/-- A way has no more names than there are entries, since its steps have different ones. -/
theorem Shows.length_le (h : d.Shows l ns) : ns.length ≤ d.entries.length := by
  have hnodup : ((List.range ns.length).map fun k => l ++ ns.take (k + 1)).Nodup := by
    refine List.Nodup.map_on ?_ List.nodup_range
    intro a ha b hb hab
    rw [List.mem_range] at ha hb
    have hlen := congrArg List.length hab
    simp only [List.length_append, List.length_take] at hlen
    omega
  have hsubset : ((List.range ns.length).map fun k => l ++ ns.take (k + 1)) ⊆
      d.entries.map (·.1) := by
    intro m hm
    obtain ⟨k, hk, rfl⟩ := List.mem_map.mp hm
    obtain ⟨x, hx, he⟩ := h.exists_entry k (List.mem_range.mp hk)
    exact List.mem_map.mpr ⟨x, hx, he⟩
  simpa using (hnodup.subperm hsubset).length_le

/-- A listing has exactly the files to which visible names lead, each with its path. -/
theorem mem_filesBelow {p q : Path} (hf : d.find p true = .ok (.present l .directory)) :
    q ∈ d.filesBelow p ↔ ∃ ns, d.Shows l ns ∧ q = ns.foldl (fun r n => r.join ⟨n⟩) p := by
  rw [filesBelow, hf, mem_filesTo]
  refine exists_congr fun ns => and_congr_right fun h => ?_
  have hle : ns.length ≤ d.entries.length + 1 := Nat.le_succ_of_le h.length_le
  exact and_iff_right hle

theorem Shows.visible (h : d.Shows l ns) : ∀ n ∈ ns, Visible n := by
  induction h with
  | file hv => simpa using hv
  | step hv _ _ ih => exact List.forall_mem_cons.mpr ⟨hv, ih⟩

theorem Shows.proper (h : d.Shows l ns) (hd : d.Named) (hn : n ∈ ns) : ProperName n := by
  have hpos := List.length_pos_of_mem hn
  obtain ⟨x, hx, he⟩ := h.exists_entry (ns.length - 1) (Nat.sub_lt hpos Nat.one_pos)
  rw [Nat.sub_add_cancel hpos, List.take_length] at he
  obtain ⟨hempty, hslash⟩ := hd x hx n (he ▸ List.mem_append_right _ hn)
  have hv := h.visible n hn
  refine ⟨hempty, ?_, ?_, hslash⟩
  · rintro rfl
    exact hv rfl
  · rintro rfl
    exact hv rfl

end Disk

end Scaffold
