import Scaffold.Proofs.Source.Splice
import Scaffold.Proofs.Tree.Lowering

namespace Scaffold
set_option autoImplicit true

variable {t : SyntaxTree}

namespace SyntaxTree

/-- The nodes `cs` follow each other from `cursor` to `stop`, each behind the gap before it. -/
def Tiles (t : SyntaxTree) : Nat → List Nat → Nat → Prop
  | cursor, [], stop => cursor = stop
  | cursor, c :: cs, stop => ∃ s, (t.node c).span = some s ∧ s.Fits t.source ∧
      (t.node c).leading = some ⟨cursor, s.start⟩ ∧ Span.Fits ⟨cursor, s.start⟩ t.source ∧
      t.Tiles s.stop cs stop

theorem tiles_append :
    t.Tiles a (cs ++ ds) b ↔ ∃ mid, t.Tiles a cs mid ∧ t.Tiles mid ds b := by
  induction cs generalizing a with
  | nil => simp [Tiles]
  | cons c cs ih =>
    simp only [List.cons_append, Tiles, ih]
    constructor
    · rintro ⟨s, hs, hf, hl, hg, mid, hc, hd⟩
      exact ⟨mid, ⟨s, hs, hf, hl, hg, hc⟩, hd⟩
    · rintro ⟨mid, ⟨s, hs, hf, hl, hg, hc⟩, hd⟩
      exact ⟨s, hs, hf, hl, hg, mid, hc, hd⟩

/-- A node from the source over the range `s` whose last child ends at `stop`. -/
structure Covered (t : SyntaxTree) (i : Nat) (s : Span) (stop : Nat) : Prop where
  span : (t.node i).span = some s
  fits : s.Fits t.source
  replacement : (t.node i).replacement = none
  tiles : t.Tiles s.start (t.children i) stop
  rest : Span.Fits ⟨stop, s.stop⟩ t.source
  trailing : (t.node i).trailing =
    if (t.children i).isEmpty then none else some ⟨stop, s.stop⟩

/-- Every node stems from the source and is covered by its children and gaps. -/
structure Tiled (t : SyntaxTree) : Prop extends Preordered t where
  covered : ∀ i < t.size, ∃ s stop, t.Covered i s stop
  root_span : (t.node root).span = some ⟨0, t.source.utf8ByteSize⟩

theorem Tiled.exists_span (h : Tiled t) (hi : i < t.size) :
    ∃ s, (t.node i).span = some s ∧ s.Fits t.source := by
  obtain ⟨s, stop, hs⟩ := h.covered i hi
  exact ⟨s, hs.span, hs.fits⟩

theorem Tiled.root_lt_size (h : Tiled t) : root < t.size := by
  by_contra hlt
  have hs := h.root_span
  rw [node_of_size_le (Nat.le_of_not_lt hlt)] at hs
  cases hs

theorem Tiled.child_span (h : Tiled t) (hc : c ∈ t.children i) : (t.node c).span ≠ none := by
  obtain ⟨s, hs, _⟩ := h.exists_span (h.ascending i c hc).2
  rw [hs]
  nofun

end SyntaxTree

namespace Concrete

mutual

/-- The ranges below a node that is taken to cover `span` are in order, apart from each other,
inside `span` and on character boundaries. -/
def Tidy (source : String) (span : Span) : Concrete → Prop
  | node _ _ _ _ cs => span.Fits source ∧ TidyAll source span.start span.stop cs

def TidyAll (source : String) (cursor stop : Nat) : List Concrete → Prop
  | [] => cursor ≤ stop
  | c :: cs => cursor ≤ c.span.start ∧ Tidy source c.span c ∧ TidyAll source c.span.stop stop cs

end

mutual

def decideTidy (source : String) (span : Span) : ∀ c : Concrete, Decidable (Tidy source span c)
  | node _ _ _ _ cs =>
    haveI := decideTidyAll source span.start span.stop cs
    inferInstanceAs (Decidable (_ ∧ _))

def decideTidyAll (source : String) (cursor stop : Nat) :
    ∀ cs : List Concrete, Decidable (TidyAll source cursor stop cs)
  | [] => inferInstanceAs (Decidable (cursor ≤ stop))
  | c :: cs =>
    haveI := decideTidy source c.span c
    haveI := decideTidyAll source c.span.stop stop cs
    inferInstanceAs (Decidable (_ ∧ _ ∧ _))

end

/-- A concrete tree of a source, whose root is taken to cover the whole source. -/
def WellFormed (source : String) (c : Concrete) : Prop :=
  Tidy source ⟨0, source.utf8ByteSize⟩ c

instance (source : String) (c : Concrete) : Decidable (WellFormed source c) :=
  decideTidy source _ c

theorem Tidy.fits (h : Tidy source s c) : s.Fits source := by
  cases c
  exact h.1

theorem tidy_withLabel (label : String) (h : Tidy source s c) :
    Tidy source s (c.withLabel label) := by
  cases c
  exact h

theorem TidyAll.mono (h : TidyAll source b stop cs) (hle : a ≤ b) : TidyAll source a stop cs := by
  cases cs with
  | nil => exact Nat.le_trans hle h
  | cons c cs => exact ⟨Nat.le_trans hle h.1, h.2⟩

theorem TidyAll.le (h : TidyAll source cursor stop cs) : cursor ≤ stop := by
  induction cs generalizing cursor with
  | nil => exact h
  | cons c cs ih => exact Nat.le_trans (Nat.le_trans h.1 h.2.1.fits.1) (ih h.2.2)

theorem TidyAll.append (h : TidyAll source cursor b cs) (h' : TidyAll source b stop ds) :
    TidyAll source cursor stop (cs ++ ds) := by
  induction cs generalizing cursor with
  | nil => exact h'.mono h
  | cons c cs ih => exact ⟨h.1, h.2.1, ih h.2.2⟩

theorem TidyAll.split (h : TidyAll source cursor stop (cs ++ c :: ds)) :
    TidyAll source cursor c.span.start cs ∧ TidyAll source c.span.start stop (c :: ds) := by
  induction cs generalizing cursor with
  | nil => exact ⟨h.1, Nat.le_refl _, h.2⟩
  | cons b cs ih =>
    obtain ⟨hfront, hback⟩ := ih h.2.2
    exact ⟨⟨h.1, h.2.1, hfront⟩, hback⟩

/-- Trees in order end where the last of them does. -/
theorem TidyAll.to_last (h : TidyAll source cursor stop (c :: cs)) :
    TidyAll source cursor (cs.getLastD c).span.stop (c :: cs) ∧
      (cs.getLastD c).span.Fits source ∧ (cs.getLastD c).span.stop ≤ stop := by
  induction cs generalizing cursor c with
  | nil => exact ⟨⟨h.1, h.2.1, Nat.le_refl _⟩, h.2.1.fits, h.2.2⟩
  | cons d cs ih =>
    obtain ⟨hrest, hfits, hstop⟩ := ih h.2.2
    rw [List.getLastD_cons]
    exact ⟨⟨h.1, h.2.1, hrest⟩, hfits, hstop⟩

theorem TidyAll.to_end (h : TidyAll source cursor stop cs) (hle : cursor ≤ source.utf8ByteSize) :
    TidyAll source cursor source.utf8ByteSize cs := by
  induction cs generalizing cursor with
  | nil => exact hle
  | cons c cs ih => exact ⟨h.1, h.2.1, ih h.2.2 h.2.1.fits.stop_le⟩

theorem TidyAll.tidy_of_mem (h : TidyAll source cursor stop cs) (hc : c ∈ cs) :
    Tidy source c.span c := by
  induction cs generalizing cursor with
  | nil => cases hc
  | cons d cs ih =>
    rcases List.mem_cons.mp hc with rfl | hc
    · exact h.2.1
    · exact ih h.2.2 hc

theorem TidyAll.bounds_of_mem (h : TidyAll source cursor stop cs) (hc : c ∈ cs) :
    cursor ≤ c.span.start ∧ c.span.stop ≤ stop := by
  obtain ⟨front, back, rfl⟩ := List.append_of_mem hc
  obtain ⟨hfront, hback⟩ := h.split
  exact ⟨hfront.le, hback.2.2.le⟩

/-- Of trees in order, no other has the range of one that is not empty. -/
theorem TidyAll.span_ne (h : TidyAll source cursor stop (cs ++ c :: ds))
    (hc : c.span.start < c.span.stop) (hd : d ∈ cs ++ ds) : d.span ≠ c.span := by
  obtain ⟨hfront, hback⟩ := h.split
  intro heq
  rcases List.mem_append.mp hd with hd | hd
  · have hb := hfront.bounds_of_mem hd
    rw [heq] at hb
    omega
  · have hb := hback.2.2.bounds_of_mem hd
    rw [heq] at hb
    omega

theorem advance_eq (h : cursor ≤ c.span.start) (hf : c.span.Fits source) :
    advance cursor c = c.span.stop := by
  have hle := hf.1
  simp only [advance]
  omega

theorem TidyAll.rest_fits (h : TidyAll source cursor stop cs)
    (hv : Span.Fits ⟨cursor, cursor⟩ source) (hs : Span.Fits ⟨stop, stop⟩ source) :
    Span.Fits ⟨cs.foldl advance cursor, stop⟩ source := by
  induction cs generalizing cursor with
  | nil => exact ⟨h, hv.2.1, hs.2.1⟩
  | cons c cs ih =>
    have hf := h.2.1.fits
    rw [List.foldl_cons, advance_eq h.1 hf]
    exact ih h.2.2 hf.empty_stop

theorem LaidAll.tiles (h : LaidAll t fields parent cursor next cs)
    (hw : TidyAll t.source cursor stop cs) (hv : Span.Fits ⟨cursor, cursor⟩ t.source) :
    t.Tiles cursor (indices next cs) (cs.foldl advance cursor) := by
  induction cs generalizing cursor next with
  | nil => rfl
  | cons c cs ih =>
    have hf := hw.2.1.fits
    have hn := h.1.node_eq
    have htail := h.2
    rw [advance_eq hw.1 hf] at htail
    rw [Nat.max_eq_left hw.1] at hn
    rw [List.foldl_cons, advance_eq hw.1 hf]
    refine ⟨c.span, ?_, hf, ?_, ⟨hw.1, hv.2.1, hf.2.1⟩, ?_⟩
    · rw [hn]
      cases c
      rfl
    · rw [hn]
      cases c
      rfl
    · exact ih htail hw.2.2 hf.empty_stop

theorem isEmpty_indices (next : Nat) (cs : List Concrete) :
    (indices next cs).isEmpty = cs.isEmpty := by
  cases cs <;> rfl

theorem Laid.covered_head {c : Concrete} {span : Span} (h : Laid t parent field leading span i c)
    (hw : Tidy t.source span c) :
    t.Covered i span (c.children.foldl advance span.start) := by
  have hn := h.node_eq
  have hc := h.children_eq
  cases c with
  | node kind named label own cs =>
    have hr := hw.2.rest_fits hw.1.empty_start hw.1.empty_stop
    refine ⟨by rw [hn]; rfl, hw.1, by rw [hn]; rfl, ?_, hr, ?_⟩
    · rw [hc]
      exact h.2.tiles hw.2 hw.1.empty_start
    · rw [hc, hn, isEmpty_indices, headNode, Nat.max_eq_left hr.1]
      rfl

theorem Tidy.of_mem (h : Tidy source s c) (hd : d ∈ c.children) : Tidy source d.span d := by
  cases c
  exact h.2.tidy_of_mem hd

theorem Tidy.span_lt (h : Tidy source s c) (hd : d ∈ c.children)
    (hlt : d.span.start < d.span.stop) : s.start < s.stop := by
  cases c
  have hb := h.2.bounds_of_mem hd
  omega

/-- Lowering a well-formed concrete tree leaves no byte uncovered. -/
theorem lower_tiled (origin : String) (h : WellFormed source c) :
    (c.lower origin source).Tiled where
  toPreordered := lower_preordered origin source c
  covered := by
    intro i hi
    rw [size_lower] at hi
    obtain ⟨d, parent, field, leading, span, hd, htidy⟩ := (laid_lower origin source c).exists_at
      Tidy.of_mem h (Nat.zero_le i) (by omega)
    exact ⟨_, _, hd.covered_head htidy⟩
  root_span := ((laid_lower origin source c).covered_head h).span

end Concrete

end Scaffold
