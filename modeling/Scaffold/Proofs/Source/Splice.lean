import Scaffold.Source.Span

namespace Scaffold
set_option autoImplicit true

namespace Span

theorem Fits.cut?_eq (h : Fits s source) : ∃ text, s.cut? source = some text :=
  ⟨_, dif_pos h⟩

theorem fits_of_cut? (h : cut? s source = some text) : s.Fits source := by
  unfold cut? at h
  split at h
  · assumption
  · cases h

theorem cut?_bytes (h : cut? s source = some text) :
    text.toByteArray = source.toByteArray.extract s.start s.stop := by
  unfold cut? at h
  split at h
  · cases h
    rfl
  · cases h

theorem Fits.join (h : Fits ⟨a, b⟩ source) (h' : Fits ⟨b, c⟩ source) : Fits ⟨a, c⟩ source :=
  ⟨Nat.le_trans h.1 h'.1, h.2.1, h'.2.2⟩

theorem cut?_append (h : cut? ⟨a, b⟩ source = some x) (h' : cut? ⟨b, c⟩ source = some y) :
    cut? ⟨a, c⟩ source = some (x ++ y) := by
  have hf := fits_of_cut? h
  have hf' := fits_of_cut? h'
  obtain ⟨z, hz⟩ := (hf.join hf').cut?_eq
  rw [hz, Option.some.injEq, ← String.toByteArray_inj, String.toByteArray_append,
    cut?_bytes h, cut?_bytes h', cut?_bytes hz]
  exact ByteArray.extract_eq_extract_append_extract b hf.1 hf'.1

theorem fits_whole (source : String) : Fits ⟨0, source.utf8ByteSize⟩ source :=
  ⟨Nat.zero_le _, String.Pos.Raw.isValid_zero, String.Pos.Raw.isValid_rawEndPos⟩

theorem cut?_whole (source : String) : cut? ⟨0, source.utf8ByteSize⟩ source = some source := by
  obtain ⟨text, he⟩ := (fits_whole source).cut?_eq
  rw [he, Option.some.injEq, ← String.toByteArray_inj, cut?_bytes he]
  exact ByteArray.extract_zero_size

theorem Fits.stop_le (h : Fits s source) : s.stop ≤ source.utf8ByteSize :=
  h.2.2.le_utf8ByteSize

theorem Fits.empty_start (h : Fits s source) : Fits ⟨s.start, s.start⟩ source :=
  ⟨Nat.le_refl _, h.2.1, h.2.1⟩

theorem Fits.empty_stop (h : Fits s source) : Fits ⟨s.stop, s.stop⟩ source :=
  ⟨Nat.le_refl _, h.2.2, h.2.2⟩

theorem cut?_empty (h : Fits ⟨a, a⟩ source) : cut? ⟨a, a⟩ source = some "" := by
  obtain ⟨text, he⟩ := h.cut?_eq
  rw [he, Option.some.injEq, ← String.toByteArray_inj, cut?_bytes he]
  exact ByteArray.extract_same

end Span

structure Edit where
  span : Span
  text : String
  deriving DecidableEq, Repr

/-- The source from `cursor` to `stop` with some ranges replaced. There is no result unless the
ranges are in order, apart from each other, in bounds and on character boundaries. -/
def splice? (source : String) (stop : Nat) : Nat → List Edit → Option String
  | cursor, [] => (Span.mk cursor stop).cut? source
  | cursor, e :: es => do
    let before ← (Span.mk cursor e.span.start).cut? source
    let _ ← e.span.cut? source
    let rest ← splice? source stop e.span.stop es
    return before ++ e.text ++ rest

theorem splice?_cons_eq_some (hb : (Span.mk a e.span.start).cut? source = some x)
    (he : e.span.Fits source) (hr : splice? source stop e.span.stop es = some y) :
    splice? source stop a (e :: es) = some (x ++ e.text ++ y) := by
  obtain ⟨z, hz⟩ := he.cut?_eq
  simp [splice?, hb, hz, hr]

theorem splice?_cons_inv (h : splice? source stop a (e :: es) = some z) :
    ∃ x y, (Span.mk a e.span.start).cut? source = some x ∧ e.span.Fits source ∧
      splice? source stop e.span.stop es = some y ∧ z = x ++ e.text ++ y := by
  simp only [splice?, Option.bind_eq_bind, Option.bind_eq_some_iff, Option.pure_def,
    Option.some.injEq] at h
  obtain ⟨x, hx, w, hw, y, hy, he⟩ := h
  exact ⟨x, y, hx, Span.fits_of_cut? hw, hy, he.symm⟩

theorem splice?_extend (h : (Span.mk a b).cut? source = some x)
    (hs : splice? source stop b es = some y) : splice? source stop a es = some (x ++ y) := by
  cases es with
  | nil => exact Span.cut?_append h hs
  | cons e es =>
    obtain ⟨x', y', hx', he, hy', hz⟩ := splice?_cons_inv hs
    rw [splice?_cons_eq_some (Span.cut?_append h hx') he hy', hz]
    simp only [String.append_assoc]

theorem splice?_append (h : splice? source b a es = some x)
    (h' : splice? source c b es' = some y) : splice? source c a (es ++ es') = some (x ++ y) := by
  induction es generalizing a x with
  | nil => exact splice?_extend h h'
  | cons e es ih =>
    obtain ⟨x', y', hx', he, hy', hz⟩ := splice?_cons_inv h
    rw [List.cons_append, splice?_cons_eq_some hx' he (ih hy'), hz]
    simp only [String.append_assoc]

theorem splice?_single (h : Span.Fits ⟨a, b⟩ source) (text : String) :
    splice? source b a [⟨⟨a, b⟩, text⟩] = some text := by
  have hr : splice? source b b [] = some "" := Span.cut?_empty h.empty_stop
  have hc := splice?_cons_eq_some (e := ⟨⟨a, b⟩, text⟩) (Span.cut?_empty h.empty_start) h hr
  rw [hc, String.empty_append, String.append_empty]

end Scaffold
