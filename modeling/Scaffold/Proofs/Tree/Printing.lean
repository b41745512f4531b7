import Scaffold.Tree.Printer
import Scaffold.Proofs.Tree.Tiling

namespace Scaffold
set_option autoImplicit true

/-- The texts that are to stand in place of nodes and in place of the gaps before nodes. -/
structure Rewriting where
  text : Nat → Option String
  gap : Nat → Option String

def editOf : Option Span → Option String → List Edit
  | some s, some text => [⟨s, text⟩]
  | _, _ => []

@[simp]
theorem editOf_none (s : Option Span) : editOf s none = [] := by
  cases s <;> rfl

namespace Rewriting

variable {t : SyntaxTree} {r : Rewriting}

def nothing : Rewriting := ⟨fun _ => none, fun _ => none⟩

/-- The edits at a node: that of the gap before it and that of the node itself. -/
def editsAt (r : Rewriting) (t : SyntaxTree) (i : Nat) : List Edit :=
  editOf (t.node i).leading (r.gap i) ++ editOf (t.node i).span (r.text i)

def editsFrom (r : Rewriting) (t : SyntaxTree) (i : Nat) : List Edit :=
  (t.preorderFrom i).flatMap (r.editsAt t)

def edits (r : Rewriting) (t : SyntaxTree) : List Edit :=
  t.preorder.flatMap (r.editsAt t)

def editsBelow (r : Rewriting) (t : SyntaxTree) (i : Nat) : List Edit :=
  (t.children i).flatMap (r.editsFrom t)

def editsInside (r : Rewriting) (t : SyntaxTree) (i : Nat) : List Edit :=
  editOf (t.node i).span (r.text i) ++ r.editsBelow t i

theorem editsFrom_eq (h : t.Ascending) (i : Nat) :
    r.editsFrom t i = editOf (t.node i).leading (r.gap i) ++ r.editsInside t i := by
  rw [editsFrom, h.ranked.preorderFrom_eq, List.flatMap_cons, List.flatMap_assoc, editsAt,
    List.append_assoc]
  rfl

theorem editsFrom_of_gap (h : t.Ascending) (hg : r.gap i = none) :
    r.editsFrom t i = r.editsInside t i := by
  rw [editsFrom_eq h, hg, editOf_none, List.nil_append]

theorem editsInside_of_text (ht : r.text i = none) : r.editsInside t i = r.editsBelow t i := by
  rw [editsInside, ht, editOf_none, List.nil_append]

end Rewriting

namespace Printer

variable {p : Printer} {r : Rewriting} {print : Nat → Option String}

/-- What became of a node of the unedited tree. -/
inductive Fate (p : Printer) (r : Rewriting) (i : Nat) : Prop where
  /-- The node stayed as it was. -/
  | kept (hn : p.tree.node i = p.unedited.node i) (ht : r.text i = none)
      (hg : ∀ c ∈ p.unedited.children i, r.gap c = none)
  /-- A text took the place of the node and of all below it. -/
  | replaced (hl : (p.tree.node i).leading = (p.unedited.node i).leading)
      (hs : (p.tree.node i).span = none) (hr : (p.tree.node i).replacement = some text)
      (ht : r.text i = some text) (hb : r.editsBelow p.unedited i = [])
  /-- New nodes came before the last child. -/
  | grown (hc : p.unedited.children i = front ++ [close])
      (hn : p.tree.node i = { p.unedited.node i with children := front ++ added ++ [close] })
      (he : added ≠ [])
      (ha : ∀ a ∈ added, (p.tree.node a).leading = none ∧ (p.tree.node a).span = none)
      (ht : r.text i = none) (hg : ∀ c ∈ front, r.gap c = none)
      (hs : (p.unedited.node i).span = some s)
      (hclose : r.gap close = some gap)
      (hgap : p.printChildren (fun _ => some "") i s.start front.reverse false
        (added ++ [close]) = some gap)

theorem Fate.leading_eq (h : Fate p r i) :
    (p.tree.node i).leading = (p.unedited.node i).leading := by
  cases h with
  | kept hn => rw [hn]
  | replaced hl => exact hl
  | grown hc hn => rw [hn]

theorem pristineTo_succ (h : p.pristineTo (d + 1) i = true) :
    (p.tree.node i).span ≠ none ∧ ∃ other, ∀ c ∈ p.tree.children i,
      p.pristineTo d c = true ∧
        ∃ o ∈ p.unedited.children other, (p.tree.node c).span = (p.unedited.node o).span := by
  rw [pristineTo] at h
  cases hs : (p.tree.node i).span with
  | none => simp [hs] at h
  | some s =>
    refine ⟨nofun, ?_⟩
    simp only [hs, Option.bind_some] at h
    split at h
    · cases h
    · rename_i other ho
      simp only [Bool.and_eq_true, beq_iff_eq, List.all_eq_true] at h
      refine ⟨other, ?_⟩
      intro c hc
      obtain ⟨o, ho, hz⟩ := SyntaxTree.exists_mem_zip h.1 hc
      have hp := h.2 _ hz
      exact ⟨hp.2, o, ho, hp.1⟩

theorem editsInside_of_pristine (ht : p.unedited.Tiled)
    (hf : ∀ i < p.unedited.size, p.Fate r i) (hi : i < p.unedited.size)
    (h : p.pristineTo d i = true) : r.editsInside p.unedited i = [] := by
  induction d generalizing i with
  | zero => cases h
  | succ d ih =>
    obtain ⟨hs, other, hc⟩ := pristineTo_succ h
    cases hf i hi with
    | kept hn htext hg =>
      rw [Rewriting.editsInside_of_text htext, Rewriting.editsBelow, List.flatMap_eq_nil_iff]
      intro c hm
      rw [Rewriting.editsFrom_of_gap ht.ascending (hg c hm)]
      have hm' : c ∈ p.tree.children i := by rwa [SyntaxTree.children, hn]
      exact ih (ht.ascending i c hm).2 (hc c hm').1
    | replaced _ hs' => exact absurd hs' hs
    | @grown front close added s gap _ hn he ha =>
      -- An added node has no range, but every child of the unedited tree has one.
      obtain ⟨a, ha'⟩ := List.exists_mem_of_ne_nil _ he
      have hm : a ∈ p.tree.children i := by
        rw [SyntaxTree.children, hn]
        simp [ha']
      obtain ⟨_, o, ho, hso⟩ := hc a hm
      rw [(ha a ha').2] at hso
      exact absurd hso.symm (ht.child_span ho)

def Splices (p : Printer) (r : Rewriting) (print : Nat → Option String) (i : Nat) : Prop :=
  ∀ s, (p.unedited.node i).span = some s → ∃ x, print i = some x ∧
    splice? p.unedited.source s.stop s.start (r.editsInside p.unedited i) = some x

def gapText? (p : Printer) (start : Nat) (after : Bool) (gap : String) : Option String :=
  if after && !gap.toList.contains '\n' then (p.lineIndent start).map (p.newline ++ ·)
  else some gap

theorem printChildren_of_leading (hl : (p.tree.node c).leading = some l) (after : Bool)
    (before cs : List Nat) :
    p.printChildren print i start before after (c :: cs) =
      (p.slice? l).bind fun g => (p.gapText? start after g).bind fun g' =>
        (print c).bind fun x =>
          (p.printChildren print i start (c :: before) false cs).map (g' ++ x ++ ·) := by
  rw [printChildren, hl]
  refine Option.bind_congr fun g _ => ?_
  by_cases hc : (after && !g.toList.contains '\n') = true
  · rw [if_pos hc, gapText?, if_pos hc]
    cases p.lineIndent start with
    | none => rfl
    | some indent =>
      change (print c).bind _ = (print c).bind _
      exact Option.bind_congr fun x _ => (Option.map_eq_bind ..).symm
  · rw [if_neg hc, gapText?, if_neg hc]
    change (print c).bind _ = (print c).bind _
    exact Option.bind_congr fun x _ => (Option.map_eq_bind ..).symm

theorem printChildren_kept (hl : (p.tree.node c).leading = some l) (hg : p.slice? l = some g)
    (hx : print c = some x) (before cs : List Nat) :
    p.printChildren print i start before false (c :: cs) =
      (p.printChildren print i start (c :: before) false cs).map (g ++ x ++ ·) := by
  rw [printChildren_of_leading hl, hg, hx]
  rfl

theorem printChildren_added (hl : (p.tree.node c).leading = none)
    (hi : p.memberIndent i before = some indent) (after : Bool) (cs : List Nat) :
    p.printChildren print i start before after (c :: cs) =
      (p.printChildren print i start (c :: before) true cs).map
        (p.newline ++ (if before.head?.any fun b => (p.tree.node b).named then p.newline else "") ++
          indent ++ p.fresh c indent ++ ·) := by
  rw [printChildren, hl]
  simp only [hi]
  exact (Option.map_eq_bind ..).symm

/-- Children that stayed in their places are printed with the gaps before them, whatever comes
behind them. -/
theorem printChildren_tiles (i start : Nat) (ha : p.unedited.Ascending)
    (htile : p.unedited.Tiles cursor cs stop) (hv : Span.Fits ⟨cursor, cursor⟩ p.unedited.source)
    (hl : ∀ c ∈ cs, (p.tree.node c).leading = (p.unedited.node c).leading)
    (hg : ∀ c ∈ cs, r.gap c = none) (hp : ∀ c ∈ cs, p.Splices r print c) :
    ∃ x, splice? p.unedited.source stop cursor (cs.flatMap (r.editsFrom p.unedited)) = some x ∧
      ∀ before rest, p.printChildren print i start before false (cs ++ rest) =
        (p.printChildren print i start (cs.reverse ++ before) false rest).map (x ++ ·) := by
  induction cs generalizing cursor with
  | nil =>
    obtain rfl : cursor = stop := htile
    refine ⟨"", Span.cut?_empty hv, ?_⟩
    intro before rest
    simp
  | cons c cs ih =>
    obtain ⟨s, hs, hfs, hlead, hfit, htail⟩ := htile
    obtain ⟨x, hx, hsplice⟩ := hp c List.mem_cons_self s hs
    obtain ⟨y, hy, hrest⟩ := ih htail hfs.empty_stop
      (fun c' hc => hl c' (List.mem_cons_of_mem _ hc))
      (fun c' hc => hg c' (List.mem_cons_of_mem _ hc))
      (fun c' hc => hp c' (List.mem_cons_of_mem _ hc))
    obtain ⟨g, hgap⟩ := hfit.cut?_eq
    refine ⟨g ++ x ++ y, ?_, ?_⟩
    · rw [List.flatMap_cons, Rewriting.editsFrom_of_gap ha (hg c List.mem_cons_self)]
      exact splice?_append (splice?_extend hgap hsplice) hy
    · intro before rest
      rw [List.cons_append, printChildren_kept ((hl c List.mem_cons_self).trans hlead) hgap hx,
        hrest, List.reverse_cons, List.append_assoc, Option.map_map]
      simp only [Function.comp_def, String.append_assoc, List.singleton_append]

theorem printChildren_close (hl : (p.tree.node close).leading = some l)
    (hx : print close = some x)
    (ha : ∀ a ∈ added, (p.tree.node a).leading = none)
    (h : p.printChildren (fun _ => some "") i start before after (added ++ [close]) = some gap) :
    p.printChildren print i start before after (added ++ [close]) = some (gap ++ x) := by
  induction added generalizing before after gap with
  | nil =>
    rw [List.nil_append, printChildren_of_leading hl] at h ⊢
    simp only [Option.bind_eq_some_iff, printChildren, Option.map_some, Option.some.injEq] at h ⊢
    obtain ⟨g, hg, g', hg', y, rfl, he⟩ := h
    refine ⟨g, hg, g', hg', x, hx, ?_⟩
    rw [← he, String.append_empty, String.append_empty, String.append_empty]
  | cons a added ih =>
    rw [List.cons_append, printChildren, ha a List.mem_cons_self] at h ⊢
    simp only [Option.bind_eq_bind, Option.bind_eq_some_iff, Option.pure_def,
      Option.some.injEq] at h ⊢
    obtain ⟨indent, hi, rest, hr, he⟩ := h
    refine ⟨indent, hi, rest ++ x, ih (fun b hb => ha b (List.mem_cons_of_mem _ hb)) hr, ?_⟩
    rw [← he]
    simp only [String.append_assoc]

theorem isPristine_of_no_span (hs : (p.tree.node i).span = none) : p.isPristine i = false := by
  cases h : p.isPristine i with
  | false => rfl
  | true => exact absurd hs (pristineTo_succ h).1

theorem printTo_of_pristine (h : p.isPristine i = true) (hs : (p.tree.node i).span = some s)
    (d : Nat) : p.printTo (d + 1) i = p.slice? s := by
  rw [printTo]
  simp only [h, hs]
  rfl

theorem printTo_of_replacement (h : p.isPristine i = false)
    (hr : (p.tree.node i).replacement = some text) (d : Nat) :
    p.printTo (d + 1) i = some text := by
  rw [printTo]
  simp only [h, hr]
  rfl

theorem printTo_of_span (h : p.isPristine i = false)
    (hr : (p.tree.node i).replacement = none) (hs : (p.tree.node i).span = some s) (d : Nat) :
    p.printTo (d + 1) i =
      if (p.tree.children i).isEmpty then p.slice? s
      else (p.printChildren (p.printTo d) i s.start [] false (p.tree.children i)).bind fun inner =>
        (((p.tree.node i).trailing.map p.slice?).getD (some "")).map (inner ++ ·) := by
  rw [printTo]
  simp only [h, hr, hs, SyntaxTree.children, Bool.false_eq_true, if_false, Option.map_eq_bind]
  rfl

theorem splices_of_printChildren (hc : p.unedited.Covered i s stop) (ht : r.text i = none)
    (h : p.isPristine i = false) (he : p.unedited.children i ≠ []) (he' : cs ≠ [])
    (hn : p.tree.node i = { p.unedited.node i with children := cs })
    (hx : splice? p.unedited.source stop s.start (r.editsBelow p.unedited i) = some x)
    (hp : p.printChildren (p.printTo d) i s.start [] false cs = some x) :
    p.Splices r (p.printTo (d + 1)) i := by
  intro s' hs'
  obtain rfl : s = s' := Option.some.inj (hc.span.symm.trans hs')
  have hcs : p.tree.children i = cs := by rw [SyntaxTree.children, hn]
  have hr : (p.tree.node i).replacement = none := by rw [hn, ← hc.replacement]
  have hs : (p.tree.node i).span = some s := by rw [hn, ← hs']
  have htrail : (p.tree.node i).trailing = some ⟨stop, s.stop⟩ := by
    have := hc.trailing
    rw [if_neg (by simpa using he)] at this
    rw [hn, ← this]
  obtain ⟨y, hy⟩ := hc.rest.cut?_eq
  refine ⟨x ++ y, ?_, ?_⟩
  · rw [printTo_of_span h hr hs, hcs, if_neg (by simpa using he'), hp, htrail]
    simp [slice?, hy]
  · rw [Rewriting.editsInside_of_text ht, ← List.append_nil (r.editsBelow p.unedited i)]
    exact splice?_append hx hy

theorem splices_of_slice (hc : p.unedited.Covered i s stop) (he : r.editsInside p.unedited i = [])
    (hp : p.printTo d i = p.slice? s) : p.Splices r (p.printTo d) i := by
  intro s' hs'
  obtain rfl : s = s' := Option.some.inj (hc.span.symm.trans hs')
  obtain ⟨x, hx⟩ := hc.fits.cut?_eq
  rw [he, hp]
  exact ⟨x, hx, hx⟩

theorem splices_of_kept (ha : p.unedited.Ascending) (hc : p.unedited.Covered i s stop)
    (hp : p.isPristine i = true → r.editsInside p.unedited i = [])
    (hl : ∀ c ∈ p.unedited.children i, (p.tree.node c).leading = (p.unedited.node c).leading)
    (hchild : ∀ c ∈ p.unedited.children i, p.Splices r (p.printTo d) c)
    (hn : p.tree.node i = p.unedited.node i) (ht : r.text i = none)
    (hg : ∀ c ∈ p.unedited.children i, r.gap c = none) : p.Splices r (p.printTo (d + 1)) i := by
  have hs : (p.tree.node i).span = some s := by rw [hn, hc.span]
  have hr : (p.tree.node i).replacement = none := by rw [hn, hc.replacement]
  have hcs : p.tree.children i = p.unedited.children i := by
    rw [SyntaxTree.children, hn]
    rfl
  cases h : p.isPristine i with
  | true => exact splices_of_slice hc (hp h) (printTo_of_pristine h hs d)
  | false =>
    by_cases he : p.unedited.children i = []
    · apply splices_of_slice hc
      · rw [Rewriting.editsInside_of_text ht, Rewriting.editsBelow, he]
        rfl
      · rw [printTo_of_span h hr hs, hcs, he]
        rfl
    · obtain ⟨x, hx, hprint⟩ := printChildren_tiles i s.start ha hc.tiles
        hc.fits.empty_start hl hg hchild
      refine splices_of_printChildren hc ht h he he hn hx ?_
      have hall := hprint [] []
      rw [List.append_nil] at hall
      rw [hall]
      simp [printChildren]

theorem splices_of_replaced (hc : p.unedited.Covered i s stop)
    (hs : (p.tree.node i).span = none) (hr : (p.tree.node i).replacement = some text)
    (ht : r.text i = some text) (hb : r.editsBelow p.unedited i = []) :
    p.Splices r (p.printTo (d + 1)) i := by
  intro s' hs'
  obtain rfl : s = s' := Option.some.inj (hc.span.symm.trans hs')
  refine ⟨text, printTo_of_replacement (isPristine_of_no_span hs) hr d, ?_⟩
  rw [Rewriting.editsInside, hb, hc.span, ht, List.append_nil]
  exact splice?_single hc.fits text

theorem splices_of_grown (ha : p.unedited.Ascending) (hc : p.unedited.Covered i s stop)
    (hp : p.isPristine i = true → r.editsInside p.unedited i = [])
    (hl : ∀ c ∈ p.unedited.children i, (p.tree.node c).leading = (p.unedited.node c).leading)
    (hchild : ∀ c ∈ p.unedited.children i, p.Splices r (p.printTo d) c)
    (hcs : p.unedited.children i = front ++ [close])
    (hn : p.tree.node i = { p.unedited.node i with children := front ++ added ++ [close] })
    (hadd : ∀ a ∈ added, (p.tree.node a).leading = none) (ht : r.text i = none)
    (hg : ∀ c ∈ front, r.gap c = none) (hclose : r.gap close = some gap)
    (hgap : p.printChildren (fun _ => some "") i s.start front.reverse false
      (added ++ [close]) = some gap) : p.Splices r (p.printTo (d + 1)) i := by
  have htile := hc.tiles
  rw [hcs] at hl hchild htile
  obtain ⟨mid, hfront, sc, hsc, hfs, hlead, hfit, rfl⟩ := SyntaxTree.tiles_append.mp htile
  have hmem : close ∈ front ++ [close] := by simp
  obtain ⟨x, hx, hprint⟩ := printChildren_tiles i s.start ha hfront
    hc.fits.empty_start (fun c hm => hl c (List.mem_append_left _ hm)) hg
    (fun c hm => hchild c (List.mem_append_left _ hm))
  obtain ⟨y, hy, hinner⟩ := hchild close hmem sc hsc
  have hfrom : r.editsFrom p.unedited close =
      ⟨⟨mid, sc.start⟩, gap⟩ :: r.editsInside p.unedited close := by
    rw [Rewriting.editsFrom_eq ha, hlead, hclose]
    rfl
  have hbelow : r.editsBelow p.unedited i = front.flatMap (r.editsFrom p.unedited) ++
      ⟨⟨mid, sc.start⟩, gap⟩ :: r.editsInside p.unedited close := by
    rw [Rewriting.editsBelow, hcs, List.flatMap_append, List.flatMap_singleton, hfrom]
  have h : p.isPristine i = false := by
    cases h : p.isPristine i with
    | false => rfl
    | true =>
      have hnil := hp h
      rw [Rewriting.editsInside_of_text ht, hbelow] at hnil
      simp at hnil
  refine splices_of_printChildren (x := x ++ (gap ++ y)) hc ht h (by simp [hcs]) (by simp) hn ?_ ?_
  · rw [hbelow]
    exact splice?_append hx (splice?_append (splice?_single hfit gap) hinner)
  · rw [List.append_assoc, hprint, List.append_nil,
      printChildren_close ((hl close hmem).trans hlead) hy hadd hgap]
    rfl

/-- Every node prints as its range with the edits inside made. -/
theorem splices_printTo (ht : p.unedited.Tiled) (hf : ∀ i < p.unedited.size, p.Fate r i)
    (i : Nat) : i < p.unedited.size → ∀ d, p.unedited.size - i < d →
      p.Splices r (p.printTo d) i := by
  induction i using ht.ascending.induction with
  | step i ih =>
    intro hi d hd
    cases d with
    | zero => omega
    | succ d =>
      obtain ⟨s, stop, hc⟩ := ht.covered i hi
      have hchild : ∀ c ∈ p.unedited.children i, p.Splices r (p.printTo d) c := by
        intro c hm
        have hlt := ht.ascending i c hm
        exact ih c hm hlt.2 d (by omega)
      have hl : ∀ c ∈ p.unedited.children i,
          (p.tree.node c).leading = (p.unedited.node c).leading := by
        intro c hm
        exact (hf c (ht.ascending i c hm).2).leading_eq
      have hp : p.isPristine i = true → r.editsInside p.unedited i = [] :=
        editsInside_of_pristine ht hf hi
      cases hf i hi with
      | kept hn htext hg => exact splices_of_kept ht.ascending hc hp hl hchild hn htext hg
      | replaced _ hs hr htext hb => exact splices_of_replaced hc hs hr htext hb
      | grown hcs hn _ ha htext hg hs hclose hgap =>
        obtain rfl := Option.some.inj (hc.span.symm.trans hs)
        exact splices_of_grown ht.ascending hc hp hl hchild hcs hn (fun a hm => (ha a hm).1)
          htext hg hclose hgap

/-- The root prints as the source with all edits made, down to any sufficient depth. -/
theorem printTo_root (ht : p.unedited.Tiled) (hf : ∀ i < p.unedited.size, p.Fate r i)
    (hg : r.gap SyntaxTree.root = none) (hd : p.unedited.size < d) :
    ∃ x, p.printTo d SyntaxTree.root = some x ∧
      splice? p.unedited.source p.unedited.source.utf8ByteSize 0 (r.edits p.unedited) = some x := by
  have hlt : p.unedited.size - SyntaxTree.root < d := by omega
  obtain ⟨x, hx, hs⟩ := splices_printTo ht hf SyntaxTree.root ht.root_lt_size d hlt _ ht.root_span
  refine ⟨x, hx, ?_⟩
  have he : r.edits p.unedited = r.editsInside p.unedited SyntaxTree.root :=
    Rewriting.editsFrom_of_gap ht.ascending hg
  rw [he]
  exact hs

theorem printTo_root_of_unedited (ht : p.unedited.Tiled) (he : p.tree = p.unedited)
    (hd : p.unedited.size < d) : p.printTo d SyntaxTree.root = some p.unedited.source := by
  have hf : ∀ i < p.unedited.size, p.Fate .nothing i := by
    intro i _
    exact .kept (by rw [he]) rfl fun _ _ => rfl
  obtain ⟨x, hx, hs⟩ := printTo_root ht hf rfl hd
  have hnil : Rewriting.nothing.edits p.unedited = [] := by
    simp [Rewriting.edits, Rewriting.editsAt, Rewriting.nothing]
  rw [hnil] at hs
  rw [hx, ← hs]
  exact Span.cut?_whole p.unedited.source

end Printer

/-- Printing an unedited tree gives its source back, and would do so for any other index of the
nodes that count as pristine. -/
theorem print_lower_lossless (origin source : String) (c : Concrete)
    (h : c.WellFormed source) :
    (c.lower origin source).print? (c.lower origin source) = some source ∧
      ∀ index, (Printer.mk (c.lower origin source) (c.lower origin source) index).printTo
        ((c.lower origin source).size + 1) SyntaxTree.root = some source := by
  have ht := c.lower_tiled origin h
  refine ⟨?_, fun index => ?_⟩
  · exact Printer.printTo_root_of_unedited (p := .between _ _) ht rfl (Nat.lt_succ_self _)
  · exact Printer.printTo_root_of_unedited (p := .mk _ _ index) ht rfl (Nat.lt_succ_self _)

/-- Two nested nodes share their range and kind, and an empty node stands behind them. -/
theorem print_lower_lossless_nested :
    (Concrete.node "program" true none ⟨1, 2⟩
      [.node "name" true none ⟨0, 2⟩ [.node "name" true none ⟨0, 2⟩ []],
        .node "comment" true none ⟨2, 2⟩ []]).WellFormed "é;" ∧
    ((Concrete.node "program" true none ⟨1, 2⟩
      [.node "name" true none ⟨0, 2⟩ [.node "name" true none ⟨0, 2⟩ []],
        .node "comment" true none ⟨2, 2⟩ []]).lower "a.php" "é;").print?
      ((Concrete.node "program" true none ⟨1, 2⟩
        [.node "name" true none ⟨0, 2⟩ [.node "name" true none ⟨0, 2⟩ []],
          .node "comment" true none ⟨2, 2⟩ []]).lower "a.php" "é;") = some "é;" :=
  ⟨by decide, (print_lower_lossless _ _ _ (by decide)).1⟩

end Scaffold
