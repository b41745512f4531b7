import Mathlib.Data.List.Chain
import Scaffold.Proofs.Source.Splice

namespace Scaffold
set_option autoImplicit true

/-- A text without line ends. -/
def OneLine (s : String) : Prop :=
  '\r' ∉ s.toList ∧ '\n' ∉ s.toList

instance (s : String) : Decidable (OneLine s) :=
  inferInstanceAs (Decidable (_ ∧ _))

/-- Every line feed stands right behind a return. -/
def Returned (s : String) : Prop :=
  s.toList.head? ≠ some '\n' ∧ s.toList.IsChain fun a b => b = '\n' → a = '\r'

instance (s : String) : Decidable (Returned s) :=
  inferInstanceAs (Decidable (_ ∧ _))

/-- Whether an offset is between a return and its line feed. -/
def SplitsLineEnd (source : String) (offset : Nat) : Prop :=
  (Span.mk (offset - 1) (offset + 1)).cut? source = some "\r\n"

instance (source : String) (offset : Nat) : Decidable (SplitsLineEnd source offset) :=
  inferInstanceAs (Decidable (_ = _))

theorem Returned.getLast?_eq (h : Returned s) (hs : s.toList = front ++ '\n' :: back) :
    front.getLast? = some '\r' := by
  rw [Returned, hs] at h
  cases hlast : front.getLast? with
  | none =>
    rw [List.getLast?_eq_none_iff] at hlast
    rw [hlast] at h
    exact absurd rfl h.1
  | some c =>
    have hc : c = '\r' := (List.isChain_append.mp h.2).2.2 c hlast '\n' rfl rfl
    rw [hc]

theorem OneLine.append (hx : OneLine x) (hy : OneLine y) : OneLine (x ++ y) := by
  simp only [OneLine, String.toList_append, List.mem_append, not_or]
  exact ⟨⟨hx.1, hy.1⟩, hx.2, hy.2⟩

/-- A property of all texts without line ends which texts that have it pass on to what is put
together from them. -/
structure Inherited (P : String → Prop) : Prop where
  oneLine : OneLine x → P x
  append : P x → P y → P (x ++ y)

theorem Inherited.intercalate {P : String → Prop} (h : Inherited P) (hs : P sep) {ws : List String}
    (hw : ∀ w ∈ ws, P w) : P (sep.intercalate ws) := by
  induction ws with
  | nil =>
    rw [String.intercalate_nil]
    exact h.oneLine (by decide)
  | cons w ws ih =>
    have hfirst := hw w List.mem_cons_self
    cases ws with
    | nil =>
      rw [String.intercalate_singleton]
      exact hfirst
    | cons v ws =>
      rw [String.intercalate_cons_cons]
      exact h.append (h.append hfirst hs) (ih fun x hx => hw x (List.mem_cons_of_mem _ hx))

theorem inherited_returned : Inherited Returned where
  oneLine := by
    intro x hx
    refine ⟨fun hh => hx.2 (List.mem_of_head? hh), List.isChain_iff_getElem.mpr ?_⟩
    intro i hi hn
    exact absurd (hn ▸ List.getElem_mem hi) hx.2
  append := by
    intro x y hx hy
    rw [Returned, String.toList_append]
    refine ⟨?_, List.isChain_append.mpr ⟨hx.2, hy.2, ?_⟩⟩
    · cases hc : x.toList with
      | nil => exact hy.1
      | cons c cs =>
        have hhead := hx.1
        rw [hc] at hhead
        exact hhead
    · rintro a - b hb rfl
      exact absurd hb hy.1

theorem inherited_noReturn : Inherited fun s => '\r' ∉ s.toList where
  oneLine hx := hx.1
  append := by
    intro x y hx hy
    rw [String.toList_append, List.mem_append, not_or]
    exact ⟨hx, hy⟩

namespace Span

theorem size_of_cut? (h : cut? s source = some x) : x.utf8ByteSize = s.stop - s.start := by
  have hle := (fits_of_cut? h).stop_le
  rw [← String.size_toByteArray, cut?_bytes h, ByteArray.size_extract, String.size_toByteArray,
    Nat.min_eq_left hle]

theorem fits_middle (u x v : String) :
    Fits ⟨u.utf8ByteSize, u.utf8ByteSize + x.utf8ByteSize⟩ (u ++ x ++ v) := by
  refine ⟨Nat.le_add_right _ _, ?_, ?_⟩
  · exact String.Pos.Raw.isValid_iff_exists_append.mpr ⟨u, x ++ v, String.append_assoc, rfl⟩
  · refine String.Pos.Raw.isValid_iff_exists_append.mpr ⟨u ++ x, v, rfl, ?_⟩
    rw [String.Pos.Raw.ext_iff, String.byteIdx_rawEndPos, String.utf8ByteSize_append]

/-- A cut is what stands between a beginning and an end of the text. -/
theorem cut?_eq_some_iff : (Span.mk a b).cut? source = some x ↔
    ∃ u v, source = u ++ x ++ v ∧ u.utf8ByteSize = a ∧ a + x.utf8ByteSize = b := by
  constructor
  · intro h
    have hf := fits_of_cut? h
    have hle : a ≤ b := hf.1
    obtain ⟨u, hu⟩ : ∃ u, cut? ⟨0, a⟩ source = some u :=
      Fits.cut?_eq ⟨Nat.zero_le a, String.Pos.Raw.isValid_zero, hf.2.1⟩
    obtain ⟨v, hv⟩ : ∃ v, cut? ⟨b, source.utf8ByteSize⟩ source = some v :=
      Fits.cut?_eq ⟨hf.stop_le, hf.2.2, String.Pos.Raw.isValid_rawEndPos⟩
    have hwhole := cut?_append (cut?_append hu h) hv
    rw [cut?_whole, Option.some.injEq] at hwhole
    have hx : x.utf8ByteSize = b - a := size_of_cut? h
    exact ⟨u, v, hwhole, size_of_cut? hu, by omega⟩
  · rintro ⟨u, v, rfl, rfl, rfl⟩
    obtain ⟨y, hy⟩ := (fits_middle u x v).cut?_eq
    rw [hy, Option.some.injEq, ← String.toByteArray_inj, cut?_bytes hy, String.append_assoc,
      String.toByteArray_append, String.toByteArray_append, ← String.size_toByteArray,
      ← String.size_toByteArray]
    change ByteArray.extract _ (u.toByteArray.size + 0) _ = _
    rw [ByteArray.extract_append_size_add, ByteArray.extract_append_eq_left rfl]

/-- A cut that does not start between a return and its line feed has all returns that it needs. -/
theorem returned_of_cut? (h : cut? s source = some x) (hr : Returned source)
    (hs : ¬ SplitsLineEnd source s.start) : Returned x := by
  obtain ⟨u, v, rfl, hu, _⟩ := cut?_eq_some_iff.mp h
  have hlist : (u ++ x ++ v).toList = u.toList ++ (x.toList ++ v.toList) := by
    rw [String.toList_append, String.toList_append, List.append_assoc]
  have hchain := hr.2
  rw [hlist] at hchain
  refine ⟨?_, hchain.right_of_append.left_of_append⟩
  intro hn
  -- a line feed at the front of the cut has its return at the end of what stands before the cut
  obtain ⟨cs, hcs⟩ := List.head?_eq_some_iff.mp hn
  obtain ⟨ds, hds⟩ := List.getLast?_eq_some_iff.mp (hr.getLast?_eq (hcs ▸ hlist))
  have hx : x = "\n" ++ .ofList cs := by simp [← String.toList_inj, hcs]
  have hu' : u = .ofList ds ++ "\r" := by simp [← String.toList_inj, hds]
  have hstart : s.start = (String.ofList ds).utf8ByteSize + 1 := by
    rw [← hu, hu', String.utf8ByteSize_append]
    rfl
  apply hs
  refine cut?_eq_some_iff.mpr ⟨.ofList ds, .ofList cs ++ v, ?_, ?_, ?_⟩
  · rw [hx, hu']
    have hends : "\r\n" = "\r" ++ "\n" := by decide
    simp only [hends, String.append_assoc]
  · rw [hstart, Nat.add_sub_cancel]
  · rw [hstart, Nat.add_sub_cancel]
    rfl

theorem noReturn_of_cut? (h : cut? s source = some x) (hr : '\r' ∉ source.toList) :
    '\r' ∉ x.toList := by
  obtain ⟨u, v, rfl, _⟩ := cut?_eq_some_iff.mp h
  intro hx
  apply hr
  rw [String.toList_append, String.toList_append]
  exact List.mem_append_left _ (List.mem_append_right _ hx)

end Span

end Scaffold
