import Scaffold.Php.Pattern
import Scaffold.Proofs.Php.Lexing
import Scaffold.Proofs.Tree.Tiling

namespace Scaffold
set_option autoImplicit true

/-- A leaf that may stand between any two others. -/
structure Concrete.IsRemark (c : Concrete) : Prop where
  isExtra_eq : c.isExtra = true
  label_eq : c.label = none
  children_eq : c.children = []

namespace Php

/-- Whether a pattern reads nothing, whatever it looks at. -/
def Pattern.isLook : Pattern ρ → Bool
  | .empty | .goesOn | .glued | .ahead _ | .absent _ | .behind _ => true
  | _ => false

/-- The trees, in order, that reading a pattern can build over the tokens of a text. -/
inductive Yields {ρ : Type} (source : String) (rules : ρ → Pattern ρ) :
    Pattern ρ → List Concrete → Prop where
  | look {p : Pattern ρ} (h : p.isLook = true) : Yields source rules p []
  | token {kind : Option String} {named : Bool} {test : Token → Bool} {t : Token}
      {lead : List Concrete} (hlead : ∀ c ∈ lead, c.IsRemark) (ht : t.Spelled source)
      (hextra : t.isExtra = false) (htest : test t = true) :
      Yields source rules (.token kind named test)
        (lead ++ [.node (kind.getD t.kind) named none t.span []])
  | closer {t : Token} {lead : List Concrete} (hlead : ∀ c ∈ lead, c.IsRemark)
      (ht : t.Spelled source) (hshape : t.shape = .symbol) :
      Yields source rules (.closer t.text) (lead ++ [t.leaf])
  | unquote {delimiter : String} {t : Token} (ht : t.Spelled source) :
      Yields source rules (.unquote delimiter) [.node delimiter false none t.span []]
  | islandEnd {lead : List Concrete} (hlead : ∀ c ∈ lead, c.IsRemark) :
      Yields source rules .terminator lead
  | terminator {t : Token} {lead : List Concrete} (hlead : ∀ c ∈ lead, c.IsRemark)
      (ht : t.Spelled source) (hshape : t.shape = .symbol) :
      Yields source rules .terminator (lead ++ [t.leaf])
  | rule {r : ρ} {cs : List Concrete} (h : Yields source rules (rules r) cs) :
      Yields source rules (.rule r) cs
  | seq {p q : Pattern ρ} {cs ds : List Concrete} (h : Yields source rules p cs)
      (h' : Yields source rules q ds) : Yields source rules (.seq p q) (cs ++ ds)
  | first {p q : Pattern ρ} {cs : List Concrete} (h : Yields source rules p cs) :
      Yields source rules (.alt p q) cs
  | second {p q : Pattern ρ} {cs : List Concrete} (h : Yields source rules q cs) :
      Yields source rules (.alt p q) cs
  | done {p : Pattern ρ} : Yields source rules (.many p) []
  | more {p : Pattern ρ} {cs ds : List Concrete} (h : Yields source rules p cs)
      (h' : Yields source rules (.many p) ds) : Yields source rules (.many p) (cs ++ ds)
  | within {nested : Bool} {p : Pattern ρ} {cs : List Concrete} (h : Yields source rules p cs) :
      Yields source rules (.within nested p) cs
  | remarks {kind : String} {p : Pattern ρ} {cs : List Concrete} (h : Yields source rules p cs)
      (hcs : cs.dropWhile Concrete.isExtra = []) : Yields source rules (.node kind p) cs
  | node {kind : String} {p : Pattern ρ} {cs more : List Concrete} {first : Concrete}
      (h : Yields source rules p cs) (hcs : cs.dropWhile Concrete.isExtra = first :: more) :
      Yields source rules (.node kind p) (cs.takeWhile Concrete.isExtra ++
        [.node kind true none ⟨first.span.start, (more.getLastD first).span.stop⟩ (first :: more)])
  | unlabelled {label : String} {p : Pattern ρ} (h : Yields source rules p []) :
      Yields source rules (.field label p) []
  | field {label : String} {p : Pattern ρ} {cs : List Concrete} {c : Concrete}
      (h : Yields source rules p (cs ++ [c])) :
      Yields source rules (.field label p) (cs ++ [c.withLabel label])

theorem Token.isRemark_leaf {t : Token} (h : t.isExtra = true) : t.leaf.IsRemark := by
  refine ⟨?_, rfl, rfl⟩
  rw [isExtra, Bool.or_eq_true, beq_iff_eq, beq_iff_eq] at h
  rcases h with h | h <;> simp [leaf, kind, h, Concrete.isExtra, Concrete.kind]

variable {source : String} {cs ds : List Concrete} {r r' r'' : Reading}

/-- Reading goes on: some trees are new, and they and the tokens that are left stand in the text one
behind another. -/
structure Grows (source : String) (cs : List Concrete) (r r' : Reading) : Prop where
  built : r'.built = cs.reverse ++ r.built
  tidy : Concrete.TidyAll source r.stop r'.stop cs
  follow : Follow source r'.stop r'.tokens

namespace Grows

theorem refl (h : Follow source r.stop r.tokens) : Grows source [] r r where
  built := rfl
  tidy := Nat.le_refl _
  follow := h

theorem trans (h : Grows source cs r r') (h' : Grows source ds r' r'') :
    Grows source (cs ++ ds) r r'' where
  built := by rw [h'.built, h.built, List.reverse_append, List.append_assoc]
  tidy := h.tidy.append h'.tidy
  follow := h'.follow

theorem shift (h : Follow source r.stop r.tokens) (htokens : r.tokens = t :: ts) (kind : String)
    (named : Bool) :
    Grows source [.node kind named none t.span []] r
      (r.shift t ts (.node kind named none t.span [])) := by
  rw [htokens] at h
  obtain ⟨hstart, ht, hrest⟩ := h
  have hfits := Span.fits_of_cut? ht.cut_eq
  exact ⟨rfl, ⟨hstart, ⟨hfits, hfits.1⟩, Nat.le_refl _⟩, hrest⟩

theorem skipExtras (h : Follow source r.stop r.tokens) :
    ∃ lead, (∀ c ∈ lead, Concrete.IsRemark c) ∧ Grows source lead r r.skipExtras := by
  generalize htokens : r.tokens = tokens
  induction tokens generalizing r with
  | nil =>
    refine ⟨[], nofun, ?_, ?_, ?_⟩ <;> simp only [Reading.skipExtras, htokens]
    · rfl
    · exact Nat.le_refl _
    · trivial
  | cons t ts ih =>
    cases hextra : t.isExtra with
    | false =>
      rw [htokens] at h
      refine ⟨[], nofun, ?_, ?_, ?_⟩ <;>
        simp only [Reading.skipExtras, htokens, List.takeWhile_cons, List.dropWhile_cons, hextra]
      · rfl
      · exact Nat.le_refl _
      · exact h
    | true =>
      have hskip : r.skipExtras = (r.shift t ts t.leaf).skipExtras := by
        simp [Reading.skipExtras, Reading.shift, htokens, hextra]
      have hshift := shift h htokens t.kind t.named
      obtain ⟨lead, hlead, hgrows⟩ := ih hshift.follow rfl
      refine ⟨t.leaf :: lead, ?_, ?_⟩
      · exact List.forall_mem_cons.mpr ⟨Token.isRemark_leaf hextra, hlead⟩
      · rw [hskip]
        exact hshift.trans hgrows

theorem node (h : Grows source cs { r with built := [] } r') (kind : String)
    (hcs : cs.dropWhile Concrete.isExtra = first :: more) :
    Grows source (cs.takeWhile Concrete.isExtra ++
        [.node kind true none ⟨first.span.start, (more.getLastD first).span.stop⟩ (first :: more)])
      r { r' with built := wrap kind r'.built r.built } where
  built := by
    have hbuilt : r'.built.reverse = cs := by
      rw [h.built, List.append_nil, List.reverse_reverse]
    simp [wrap, hbuilt, hcs]
  tidy := by
    have htidy := h.tidy
    rw [← List.takeWhile_append_dropWhile (p := Concrete.isExtra) (l := cs), hcs] at htidy
    obtain ⟨hlead, hrest⟩ := htidy.split
    obtain ⟨hinner, hlast, hstop⟩ := hrest.to_last
    have hfirst := hrest.2.1.fits
    apply hlead.append
    exact ⟨Nat.le_refl _, ⟨⟨hinner.le, hfirst.2.1, hlast.2.2⟩, hinner⟩, hstop⟩
  follow := h.follow

theorem remarks (h : Grows source cs { r with built := [] } r') (kind : String)
    (hcs : cs.dropWhile Concrete.isExtra = []) :
    Grows source cs r { r' with built := wrap kind r'.built r.built } where
  built := by
    have hbuilt : r'.built.reverse = cs := by
      rw [h.built, List.append_nil, List.reverse_reverse]
    have hall := List.takeWhile_append_dropWhile (p := Concrete.isExtra) (l := cs)
    rw [hcs, List.append_nil] at hall
    simp [wrap, hbuilt, hcs, hall]
  tidy := h.tidy
  follow := h.follow

theorem unlabelled (h : Grows source [] { r with built := [] } r') (label : String) :
    Grows source [] r { r' with built := labelLast label r'.built ++ r.built } where
  built := by rw [h.built]; rfl
  tidy := h.tidy
  follow := h.follow

theorem field (h : Grows source (cs ++ [c]) { r with built := [] } r') (label : String) :
    Grows source (cs ++ [c.withLabel label]) r
      { r' with built := labelLast label r'.built ++ r.built } where
  built := by simp [h.built, labelLast]
  tidy := by
    obtain ⟨hlead, hlast⟩ := h.tidy.split
    have hspan : (c.withLabel label).span = c.span := by cases c; rfl
    refine hlead.append ⟨Nat.le_of_eq (by rw [hspan]), ?_, ?_⟩
    · rw [hspan]
      exact Concrete.tidy_withLabel label hlast.2.1
    · rw [hspan]
      exact hlast.2.2
  follow := h.follow

end Grows

namespace Pattern

variable {ρ : Type} {rules : ρ → Pattern ρ}

theorem yields_of_readToken (hr : Follow source r.stop r.tokens)
    (h : readToken kind named test r = .read r') :
    ∃ cs, Yields source rules (.token kind named test) cs ∧ Grows source cs r r' := by
  obtain ⟨lead, hlead, hskip⟩ := Grows.skipExtras hr
  rw [readToken] at h
  split at h
  · cases h
  · rename_i t ts htokens
    split at h
    · rename_i htest
      cases h
      have hfollow := hskip.follow
      have hshift := Grows.shift hfollow htokens (kind.getD t.kind) named
      have hextra : t.isExtra = false := by
        have hhead := List.head?_dropWhile_not Token.isExtra r.tokens
        rwa [show r.tokens.dropWhile Token.isExtra = t :: ts from htokens] at hhead
      rw [htokens] at hfollow
      exact ⟨_, .token hlead hfollow.2.1 hextra htest, hskip.trans hshift⟩
    · cases h

theorem closes_of_readCloser (hr : Follow source r.stop r.tokens)
    (h : readCloser text r = .read r') :
    ∃ (lead : List Concrete) (t : Token), (∀ c ∈ lead, c.IsRemark) ∧ t.Spelled source ∧
      t.shape = .symbol ∧ t.text = text ∧ Grows source (lead ++ [t.leaf]) r r' := by
  obtain ⟨lead, hlead, hskip⟩ := Grows.skipExtras hr
  rw [readCloser] at h
  split at h
  · cases h
  · rename_i t ts htokens
    split at h
    · rename_i htest
      cases h
      rw [Bool.and_eq_true, beq_iff_eq, beq_iff_eq] at htest
      have hfollow := hskip.follow
      have hshift := Grows.shift hfollow htokens t.kind t.named
      rw [htokens] at hfollow
      exact ⟨lead, t, hlead, hfollow.2.1, htest.1, htest.2, hskip.trans hshift⟩
    · cases h

theorem yields_of_readUnquote (hr : Follow source r.stop r.tokens)
    (h : readUnquote delimiter r = .read r') :
    ∃ cs, Yields source rules (.unquote delimiter) cs ∧ Grows source cs r r' := by
  rw [readUnquote] at h
  split at h
  · cases h
  · rename_i t ts htokens
    split at h
    · cases h
      have hshift := Grows.shift hr htokens delimiter false
      rw [htokens] at hr
      exact ⟨_, .unquote hr.2.1, hshift⟩
    · split at h <;> cases h

theorem yields_of_readTerminator (hr : Follow source r.stop r.tokens)
    (h : readTerminator r.tokens r = .read r') :
    ∃ cs, Yields source rules .terminator cs ∧ Grows source cs r r' := by
  have hends : ∃ lead : List Concrete, (∀ c ∈ lead, c.IsRemark) ∧
      (Grows source lead r r' ∨ ∃ t : Token, t.Spelled source ∧ t.shape = .symbol ∧
        Grows source (lead ++ [t.leaf]) r r') := by
    generalize htokens : r.tokens = tokens at h
    induction tokens generalizing r with
    | nil =>
      rw [readTerminator] at h
      split at h
      · cases h
        exact ⟨[], nofun, .inl (.refl hr)⟩
      · cases h
    | cons t ts ih =>
      rw [readTerminator] at h
      split at h
      · cases h
        exact ⟨[], nofun, .inl (.refl hr)⟩
      · split at h
        · rename_i hcomment
          have hshift := Grows.shift hr htokens t.kind t.named
          have hextra : t.isExtra = true := by rw [Token.isExtra, hcomment]; rfl
          obtain ⟨lead, hlead, hend⟩ := ih hshift.follow rfl h
          refine ⟨t.leaf :: lead,
            List.forall_mem_cons.mpr ⟨Token.isRemark_leaf hextra, hlead⟩, ?_⟩
          rcases hend with hgrows | ⟨u, hu, hshape, hgrows⟩
          · exact .inl (hshift.trans hgrows)
          · exact .inr ⟨u, hu, hshape, hshift.trans hgrows⟩
        · obtain ⟨lead, u, hlead, hu, hshape, _, hgrows⟩ := closes_of_readCloser hr h
          exact ⟨lead, hlead, .inr ⟨u, hu, hshape, hgrows⟩⟩
  obtain ⟨lead, hlead, hgrows | ⟨t, ht, hshape, hgrows⟩⟩ := hends
  · exact ⟨lead, .islandEnd hlead, hgrows⟩
  · exact ⟨lead ++ [t.leaf], .terminator hlead ht hshape, hgrows⟩

/-- What is read over the tokens of a text are trees that the pattern yields. -/
theorem yields_of_read {p : Pattern ρ} (hr : Follow source r.stop r.tokens)
    (h : read rules fuel p r = .read r') :
    ∃ cs, Yields source rules p cs ∧ Grows source cs r r' := by
  induction fuel generalizing p r r' with
  | zero => cases h
  | succ fuel ih =>
    cases p with
    | empty =>
      cases h
      exact ⟨[], .look rfl, .refl hr⟩
    | token kind named test => exact yields_of_readToken hr h
    | closer text =>
      obtain ⟨lead, t, hlead, ht, hshape, rfl, hgrows⟩ := closes_of_readCloser hr h
      exact ⟨_, .closer hlead ht hshape, hgrows⟩
    | unquote delimiter => exact yields_of_readUnquote hr h
    | terminator => exact yields_of_readTerminator hr h
    | goesOn =>
      simp only [read] at h
      split at h
      · cases h
        exact ⟨[], .look rfl, .refl hr⟩
      · cases h
    | glued =>
      simp only [read] at h
      split at h
      · cases h
        exact ⟨[], .look rfl, .refl hr⟩
      · cases h
    | rule name =>
      obtain ⟨cs, hcs, hgrows⟩ := ih hr h
      exact ⟨cs, .rule hcs, hgrows⟩
    | seq p q =>
      simp only [read] at h
      split at h
      · rename_i r₁ hr₁
        obtain ⟨cs, hcs, hfirst⟩ := ih hr hr₁
        obtain ⟨ds, hds, hsecond⟩ := ih hfirst.follow h
        exact ⟨cs ++ ds, .seq hcs hds, hfirst.trans hsecond⟩
      · rename_i hfailure
        exact (hfailure _ h).elim
    | alt p q =>
      simp only [read] at h
      split at h
      · obtain ⟨cs, hcs, hgrows⟩ := ih hr h
        exact ⟨cs, .second hcs, hgrows⟩
      · obtain ⟨cs, hcs, hgrows⟩ := ih hr h
        exact ⟨cs, .first hcs, hgrows⟩
    | many p =>
      simp only [read] at h
      split at h
      · rename_i r₁ hr₁
        obtain ⟨cs, hcs, hround⟩ := ih hr hr₁
        split at h
        · obtain ⟨ds, hds, hrest⟩ := ih hround.follow h
          exact ⟨cs ++ ds, .more hcs hds, hround.trans hrest⟩
        · cases h
          exact ⟨cs, List.append_nil cs ▸ .more hcs .done, hround⟩
      · cases h
        exact ⟨[], .done, .refl hr⟩
      · rename_i hfailure _
        exact (hfailure _ h).elim
    | ahead p =>
      simp only [read] at h
      split at h
      · cases h
        exact ⟨[], .look rfl, .refl hr⟩
      · rename_i hfailure
        exact (hfailure _ h).elim
    | absent p =>
      simp only [read] at h
      split at h
      · cases h
      · cases h
        exact ⟨[], .look rfl, .refl hr⟩
    | behind p =>
      simp only [read] at h
      split at h
      · split at h
        · cases h
          exact ⟨[], .look rfl, .refl hr⟩
        · cases h
      · cases h
    | within nested p =>
      simp only [read] at h
      split at h
      · rename_i r₁ hr₁
        cases h
        obtain ⟨cs, hcs, hbuilt, htidy, hfollow⟩ := ih (r := { r with nested := nested }) hr hr₁
        exact ⟨cs, .within hcs, hbuilt, htidy, hfollow⟩
      · rename_i hfailure
        exact (hfailure _ h).elim
    | node kind p =>
      simp only [read] at h
      split at h
      · rename_i r₁ hr₁
        cases h
        obtain ⟨cs, hcs, hgrows⟩ := ih (r := { r with built := [] }) hr hr₁
        cases hdrop : cs.dropWhile Concrete.isExtra with
        | nil => exact ⟨cs, .remarks hcs hdrop, hgrows.remarks kind hdrop⟩
        | cons first more => exact ⟨_, .node hcs hdrop, hgrows.node kind hdrop⟩
      · rename_i hfailure
        exact (hfailure _ h).elim
    | field label p =>
      simp only [read] at h
      split at h
      · rename_i r₁ hr₁
        cases h
        obtain ⟨cs, hcs, hgrows⟩ := ih (r := { r with built := [] }) hr hr₁
        rcases List.eq_nil_or_concat' cs with rfl | ⟨ds, d, rfl⟩
        · exact ⟨[], .unlabelled hcs, hgrows.unlabelled label⟩
        · exact ⟨_, .field hcs, hgrows.field label⟩
      · rename_i hfailure
        exact (hfailure _ h).elim

end Pattern

end Php

end Scaffold
