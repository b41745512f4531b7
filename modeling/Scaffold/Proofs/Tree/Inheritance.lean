import Mathlib.Data.List.TakeWhile
import Scaffold.Proofs.Source.LineEnds
import Scaffold.Proofs.Tree.Editing
import Scaffold.Proofs.Tree.Lines

namespace Scaffold
set_option autoImplicit true

def Yields (P : String → Prop) (x : Option String) : Prop :=
  ∃ y, x = some y ∧ P y

theorem Yields.map {P Q : String → Prop} {f : String → String} (h : Yields P x)
    (hf : ∀ y, P y → Q (f y)) : Yields Q (x.map f) := by
  obtain ⟨y, rfl, hy⟩ := h
  exact ⟨f y, rfl, hf y hy⟩

theorem Yields.bind {P Q : String → Prop} {f : String → Option String} (h : Yields P x)
    (hf : ∀ y, P y → Yields Q (f y)) : Yields Q (x.bind f) := by
  obtain ⟨y, rfl, hy⟩ := h
  exact hf y hy

/-- The ranges of a node can be cut from the source, and the cuts have a property as does the text
that stands in place of the node. -/
structure SyntaxNode.MadeOf (P : String → Prop) (source : String) (n : SyntaxNode) : Prop where
  span : ∀ s ∈ n.span, Yields P (s.cut? source)
  leading : ∀ s ∈ n.leading, Yields P (s.cut? source)
  trailing : ∀ s ∈ n.trailing, Yields P (s.cut? source)
  replacement : ∀ x ∈ n.replacement, P x

namespace SyntaxTree

variable {t : SyntaxTree} {P : String → Prop}

def MadeOf (P : String → Prop) (t : SyntaxTree) : Prop :=
  ∀ i, (t.node i).MadeOf P t.source

theorem madeOf_of_size_le (h : t.size ≤ i) : (t.node i).MadeOf P t.source := by
  rw [node_of_size_le h]
  exact ⟨nofun, nofun, nofun, nofun⟩

theorem MadeOf.modify (h : t.MadeOf P) (i : Nat)
    (hf : (f (t.node i)).MadeOf P t.source) : (t.modify i f).MadeOf P := by
  intro j
  by_cases hj : j = i
  · subst hj
    by_cases hlt : j < t.size
    · rw [node_modify_self hlt]
      exact hf
    · exact madeOf_of_size_le (by rw [size_modify]; exact Nat.le_of_not_lt hlt)
  · rw [node_modify_of_ne hj]
    exact h j

theorem MadeOf.replaceWithText (h : t.MadeOf P) (i : Nat) (hx : P x) :
    (t.replaceWithText i x).MadeOf P := by
  refine h.modify i ⟨nofun, (h i).leading, nofun, ?_⟩
  rintro y ⟨⟩
  exact hx

theorem MadeOf.push {n : SyntaxNode} (h : t.MadeOf P) (hn : n.MadeOf P t.source) :
    (t.push n).MadeOf P := by
  intro i
  rcases Nat.lt_trichotomy i t.size with hlt | rfl | hgt
  · rw [node_push_of_lt hlt]
    exact h i
  · rw [node_push_self]
    exact hn
  · exact madeOf_of_size_le (by rw [size_push]; exact hgt)

theorem MadeOf.insertChild (h : t.MadeOf P) (parent index child : Nat) :
    (t.insertChild parent index child).MadeOf P := by
  have hadopt : (t.adopt parent child).MadeOf P := by
    have hc := h child
    exact h.modify child ⟨hc.span, hc.leading, hc.trailing, hc.replacement⟩
  have hp := hadopt parent
  exact hadopt.modify parent ⟨hp.span, hp.leading, hp.trailing, hp.replacement⟩

def boundaries (t : SyntaxTree) : List Nat :=
  t.nodes.toList.flatMap fun n => n.span.elim [] fun s => [s.start, s.stop]

theorem mem_boundaries (h : s ∈ (t.node i).span) :
    s.start ∈ t.boundaries ∧ s.stop ∈ t.boundaries := by
  have hlt : i < t.size := by
    by_contra hlt
    rw [node_of_size_le (Nat.le_of_not_lt hlt)] at h
    cases h
  have hn : t.node i ∈ t.nodes.toList := by
    rw [node, Array.getElem?_eq_getElem hlt]
    exact Array.getElem_mem_toList hlt
  have hs : (t.node i).span = some s := h
  constructor
  · exact List.mem_flatMap.mpr ⟨_, hn, by simp [hs]⟩
  · exact List.mem_flatMap.mpr ⟨_, hn, by simp [hs]⟩

theorem Tiles.leading_boundary (h : t.Tiles a cs b) (ha : a ∈ t.boundaries) :
    b ∈ t.boundaries ∧ ∀ c ∈ cs, ∃ l, (t.node c).leading = some l ∧ l.Fits t.source ∧
      l.start ∈ t.boundaries := by
  induction cs generalizing a with
  | nil =>
    obtain rfl : a = b := h
    exact ⟨ha, nofun⟩
  | cons c cs ih =>
    obtain ⟨s, hs, _, hl, hfit, htail⟩ := h
    obtain ⟨hb, hcs⟩ := ih htail (mem_boundaries hs).2
    refine ⟨hb, ?_⟩
    intro d hd
    rcases List.mem_cons.mp hd with rfl | hd
    · exact ⟨_, hl, hfit, ha⟩
    · exact hcs d hd

/-- Before it is edited, a tree is made of cuts that start where nodes start or end. -/
theorem Tiled.madeOf (h : t.Tiled) (hroot : (t.node root).leading = some ⟨0, 0⟩)
    (hP : ∀ s : Span, s.Fits t.source → s.start ∈ t.boundaries → Yields P (s.cut? t.source)) :
    t.MadeOf P := by
  intro i
  by_cases hi : i < t.size
  · obtain ⟨s, stop, hc⟩ := h.covered i hi
    obtain ⟨hstop, _⟩ := hc.tiles.leading_boundary (mem_boundaries hc.span).1
    refine ⟨?_, ?_, ?_, ?_⟩
    · intro s' hs'
      obtain rfl := Option.some.inj (hc.span.symm.trans hs')
      exact hP s hc.fits (mem_boundaries hc.span).1
    · intro l hl
      -- the gap before a node is one of those between the children of its parent
      rcases h.ascending.ranked.exists_parent root i (h.mem_preorder.mpr hi) with rfl | ⟨j, _, hj⟩
      · obtain rfl := Option.some.inj (hroot.symm.trans hl)
        exact hP _ (Span.fits_whole _).empty_start (mem_boundaries h.root_span).1
      · obtain ⟨s', stop', hc'⟩ := h.covered j (lt_size_of_mem_children hj)
        obtain ⟨_, hleading⟩ := hc'.tiles.leading_boundary (mem_boundaries hc'.span).1
        obtain ⟨l', hl', hfit, hstart⟩ := hleading i hj
        obtain rfl := Option.some.inj (hl'.symm.trans hl)
        exact hP _ hfit hstart
    · intro s' hs'
      have htrailing := hc.trailing.symm.trans hs'
      split at htrailing
      · cases htrailing
      · obtain rfl := Option.some.inj htrailing
        exact hP _ hc.rest hstop
    · intro x hx
      cases hc.replacement.symm.trans hx
  · exact madeOf_of_size_le (Nat.le_of_not_lt hi)

end SyntaxTree

theorem Concrete.leading_root (origin source : String) (c : Concrete) :
    ((c.lower origin source).node SyntaxTree.root).leading = some ⟨0, 0⟩ := by
  have hn := (c.laid_lower origin source).node_eq
  rw [SyntaxTree.root, hn]
  cases c
  rfl

namespace Printer

variable {p : Printer} {P : String → Prop}

/-- All that a printer puts together has a property which passes on to the whole. -/
structure Supplied (p : Printer) (P : String → Prop) : Prop where
  inherited : Inherited P
  newline : P p.newline
  source_eq : p.tree.source = p.unedited.source
  tree : p.tree.MadeOf P

theorem Supplied.slice (h : p.Supplied P) (hs : Yields P (s.cut? p.tree.source)) :
    Yields P (p.slice? s) := by
  rwa [slice?, ← h.source_eq]

theorem Supplied.valid (h : p.Supplied P) (hs : s ∈ (p.tree.node i).span) :
    Span.Fits ⟨s.start, s.start⟩ p.unedited.source := by
  obtain ⟨x, hx, _⟩ := h.slice ((h.tree i).span s hs)
  exact (Span.fits_of_cut? hx).empty_start

theorem Supplied.textTo (h : p.Supplied P) (d i : Nat) : P (p.tree.textTo d i) := by
  induction d generalizing i with
  | zero =>
    rw [SyntaxTree.textTo]
    exact h.inherited.oneLine (by decide)
  | succ d ih =>
    rw [SyntaxTree.textTo]
    cases hr : (p.tree.node i).replacement with
    | some x => exact (h.tree i).replacement x hr
    | none =>
      cases hs : (p.tree.node i).span with
      | some s =>
        obtain ⟨x, hx, hP⟩ := (h.tree i).span s hs
        simp only [Span.cut, hx]
        exact hP
      | none =>
        apply h.inherited.intercalate (h.inherited.oneLine (by decide))
        intro w hw
        obtain ⟨c, _, rfl⟩ := List.mem_map.mp hw
        exact ih c

theorem Supplied.text (h : p.Supplied P) (i : Nat) : P (p.tree.text i) :=
  h.textTo _ i

theorem oneLine_indentAt (t : SyntaxTree) (offset : Nat) : OneLine (t.indentAt offset) := by
  have hblank : ∀ c ∈ (t.indentAt offset).toList, c = ' ' ∨ c = '\t' := by
    intro c hc
    rw [SyntaxTree.indentAt, String.toList_ofList] at hc
    simpa using List.mem_takeWhile_imp hc
  refine ⟨fun hr => ?_, fun hn => ?_⟩
  · exact absurd (hblank _ hr) (by decide)
  · exact absurd (hblank _ hn) (by decide)

theorem lineIndent_oneLine (h : Span.Fits ⟨offset, offset⟩ p.unedited.source) :
    Yields OneLine (p.lineIndent offset) :=
  ⟨_, lineIndent_eq_some h, oneLine_indentAt _ _⟩

theorem exists_onOwnLine (ha : Span.Fits ⟨a, a⟩ p.unedited.source)
    (hs : Span.Fits ⟨s.start, s.start⟩ p.unedited.source) : ∃ b, p.onOwnLine a s = some b := by
  rw [onOwnLine]
  split
  · rename_i hlt
    have hfit : Span.Fits ⟨a, s.start⟩ p.unedited.source := ⟨Nat.le_of_lt hlt, ha.2.1, hs.2.1⟩
    obtain ⟨gap, hg⟩ := hfit.cut?_eq
    exact ⟨_, by rw [slice?, hg]; rfl⟩
  · exact ⟨false, rfl⟩

theorem Supplied.memberIndent (h : p.Supplied P) (parent : Nat) (before : List Nat) :
    Yields OneLine (p.memberIndent parent before) := by
  have hstart : Span.Fits ⟨(((p.tree.node parent).span.map (·.start)).getD 0),
      ((p.tree.node parent).span.map (·.start)).getD 0⟩ p.unedited.source := by
    cases hs : (p.tree.node parent).span with
    | none => exact (Span.fits_whole _).empty_start
    | some s => exact h.valid hs
  have hdeeper := (lineIndent_oneLine hstart).map (Q := OneLine) (f := (· ++ indentUnit))
    fun x hx => hx.append (by decide)
  rw [Printer.memberIndent]
  cases hb : before.findSome? (fun s =>
      if (p.tree.node s).named then (p.tree.node s).span else none) with
  | none => simpa [Option.map_eq_bind, Function.comp_def] using hdeeper
  | some s =>
    obtain ⟨b, _, hspan⟩ := List.exists_of_findSome?_eq_some hb
    have hmember : s ∈ (p.tree.node b).span := by
      split at hspan
      · exact hspan
      · cases hspan
    obtain ⟨b, hb⟩ := exists_onOwnLine hstart (h.valid hmember)
    simp only [hb, Option.bind_eq_bind, Option.bind_some]
    cases b with
    | true => exact lineIndent_oneLine (h.valid hmember)
    | false => simpa [Option.map_eq_bind, Function.comp_def] using hdeeper

theorem Supplied.methodHead (h : p.Supplied P) (i : Nat) : ∀ w ∈ p.methodHead i, P w := by
  intro w hw
  obtain ⟨c, _, hc⟩ := List.mem_filterMap.mp hw
  have hparameters : P (((p.tree.childByField i "parameters").map p.tree.text).getD "()") := by
    cases p.tree.childByField i "parameters" with
    | none =>
      rw [Option.map_none, Option.getD_none]
      exact h.inherited.oneLine (by decide)
    | some b => exact h.text b
  split at hc
  · cases hc
  · cases hc
  · cases hc
    exact h.inherited.append (h.text c) hparameters
  · cases hc
    exact h.text c

theorem Supplied.fresh (h : p.Supplied P) (i : Nat) (hi : OneLine indent) :
    P (p.fresh i indent) := by
  have hindent : P indent := h.inherited.oneLine hi
  have hopen : P "\x7b" := h.inherited.oneLine (by decide)
  have hclose : P "\x7d" := h.inherited.oneLine (by decide)
  have hend : P ";" := h.inherited.oneLine (by decide)
  have hhead : P (" ".intercalate (p.methodHead i)) :=
    h.inherited.intercalate (h.inherited.oneLine (by decide)) (h.methodHead i)
  have happend : ∀ {x y}, P x → P y → P (x ++ y) := h.inherited.append
  rw [Printer.fresh]
  split
  · exact h.text i
  · split
    · exact happend (happend (happend (happend (happend (happend hhead h.newline) hindent) hopen)
        h.newline) hindent) hclose
    · exact happend hhead hend

theorem Supplied.gapText? (h : p.Supplied P) (hs : s ∈ (p.tree.node i).span) (after : Bool)
    (hg : P gap) : Yields P (p.gapText? s.start after gap) := by
  rw [Printer.gapText?]
  split
  · exact (lineIndent_oneLine (h.valid hs)).map fun x hx =>
      h.inherited.append h.newline (h.inherited.oneLine hx)
  · exact ⟨gap, rfl, hg⟩

theorem Supplied.printChildren (h : p.Supplied P) {print : Nat → Option String}
    (hp : ∀ i, Yields P (print i)) (hs : s ∈ (p.tree.node i).span) (before : List Nat)
    (after : Bool) (cs : List Nat) :
    Yields P (p.printChildren print i s.start before after cs) := by
  have happend : ∀ {x y}, P x → P y → P (x ++ y) := h.inherited.append
  induction cs generalizing before after with
  | nil => exact ⟨"", rfl, h.inherited.oneLine (by decide)⟩
  | cons c cs ih =>
    cases hl : (p.tree.node c).leading with
    | some l =>
      rw [printChildren_of_leading hl]
      refine (h.slice ((h.tree c).leading l hl)).bind fun g hg => ?_
      refine (h.gapText? hs after hg).bind fun g' hg' => ?_
      refine (hp c).bind fun x hx => ?_
      exact (ih (c :: before) false).map fun y hy => happend (happend hg' hx) hy
    | none =>
      obtain ⟨indent, hi, hindent⟩ := h.memberIndent i before
      have hblank :
          P (if before.head?.any fun b => (p.tree.node b).named then p.newline else "") := by
        split
        · exact h.newline
        · exact h.inherited.oneLine (by decide)
      have hstart := happend (happend h.newline hblank) (h.inherited.oneLine hindent)
      rw [printChildren_added hl hi]
      exact (ih (c :: before) true).map fun y hy => happend (happend hstart (h.fresh c hindent)) hy

/-- Every node has a print, and the print has the property. -/
theorem Supplied.printTo (h : p.Supplied P) (d i : Nat) : Yields P (p.printTo d i) := by
  have happend : ∀ {x y}, P x → P y → P (x ++ y) := h.inherited.append
  induction d generalizing i with
  | zero =>
    rw [Printer.printTo]
    exact ⟨"", rfl, h.inherited.oneLine (by decide)⟩
  | succ d ih =>
    cases hpristine : p.isPristine i with
    | true =>
      obtain ⟨s, hs⟩ := Option.ne_none_iff_exists'.mp (pristineTo_succ hpristine).1
      rw [printTo_of_pristine hpristine hs]
      exact h.slice ((h.tree i).span s hs)
    | false =>
      cases hr : (p.tree.node i).replacement with
      | some x =>
        rw [printTo_of_replacement hpristine hr]
        exact ⟨x, rfl, (h.tree i).replacement x hr⟩
      | none =>
        cases hs : (p.tree.node i).span with
        | none =>
          have hfresh := (lineIndent_oneLine (p := p) (Span.fits_whole _).empty_stop).map
            fun indent hindent => h.fresh i hindent
          rw [Printer.printTo]
          simpa only [hpristine, hr, hs, Bool.false_eq_true, if_false] using hfresh
        | some s =>
          rw [printTo_of_span hpristine hr hs]
          split
          · exact h.slice ((h.tree i).span s hs)
          · refine (h.printChildren ih hs [] false _).bind fun inner hinner => ?_
            cases ht : (p.tree.node i).trailing with
            | none => exact ⟨inner ++ "", rfl, happend hinner (h.inherited.oneLine (by decide))⟩
            | some s => exact (h.slice ((h.tree i).trailing s ht)).map fun y hy => happend hinner hy

end Printer

end Scaffold
