import Scaffold.Proofs.Merge.Growth
import Scaffold.Proofs.Tree.Lines
import Scaffold.Proofs.Tree.Reshaping

namespace Scaffold
set_option autoImplicit true

namespace SyntaxTree

/-- The gap before a child of a node that starts at `start`. Behind an added child, a gap within
one line gives way to a line end and the indentation of the node's line. -/
def gapText (t : SyntaxTree) (start : Nat) (afterAdded : Bool) (gap : String) : String :=
  if afterAdded && !gap.toList.contains '\n' then t.lineEnd ++ t.indentAt start else gap

/-- The indentation of a child added behind some children, the nearest first: that of the nearest
named one from the source if a line ends before it in the node, else one step more than that of
the node's line. -/
def addedIndent (t e : SyntaxTree) (start : Nat) (before : List Nat) : String :=
  match before.findSome? fun b => if (e.node b).named then (e.node b).span else none with
  | some s =>
    if ((Span.mk start s.start).cut t.source).toList.contains '\n' then t.indentAt s.start
    else t.indentAt start ++ "    "
  | none => t.indentAt start ++ "    "

/-- The words of an added method before its body. The first parameters among its children stand
behind its name, and an empty pair of brackets does if there are none. -/
def headWords (e : SyntaxTree) (i : Nat) : List String :=
  let parameters := (e.children i).find? fun c => (e.node c).field = some "parameters"
  (e.children i).flatMap fun c =>
    if (e.node c).field = some "name" then [e.text c ++ (parameters.map e.text).getD "()"]
    else if (e.node c).field = some "parameters" ∨ (e.node c).field = some "body" then []
    else [e.text c]

/-- The layout of an added node, which is its text unless it is a method. A method has its head on
one line and the braces of an empty body on two more, or a semicolon if no child is its body. -/
def addedLayout (t e : SyntaxTree) (indent : String) (i : Nat) : String :=
  if e.kind i ≠ "method_declaration" then e.text i
  else if ∃ c ∈ e.children i, (e.node c).field = some "body" then
    " ".intercalate (e.headWords i) ++ t.lineEnd ++ indent ++ "\x7b" ++ t.lineEnd ++ indent ++
      "\x7d"
  else " ".intercalate (e.headWords i) ++ ";"

/-- An added child on a line of its own. It stands behind a blank line if it follows a named
child. -/
def addedText (t e : SyntaxTree) (start : Nat) (before : List Nat) (c : Nat) : String :=
  let indent := t.addedIndent e start before
  let blank := if before.head?.any fun b => (e.node b).named then t.lineEnd else ""
  t.lineEnd ++ blank ++ indent ++ t.addedLayout e indent c

/-- The children of a node in the edited tree `e`, those in `before` being printed, the nearest
first. Children from the source stand behind their gaps. -/
def pieceChildren (t e : SyntaxTree) (print : Nat → String) (start : Nat) :
    List Nat → Bool → List Nat → String
  | _, _, [] => ""
  | before, afterAdded, c :: cs =>
    match (e.node c).leading with
    | some l =>
      t.gapText start afterAdded (l.cut t.source) ++ print c ++
        t.pieceChildren e print start (c :: before) false cs
    | none =>
      t.addedText e start before c ++ t.pieceChildren e print start (c :: before) true cs

/-- A node in the edited tree `e`, given what its children print: its text if it was replaced, its
range if it has no children, else its children with the gaps around them. -/
def piece (t e : SyntaxTree) (print : Nat → String) (i : Nat) : String :=
  match (e.node i).replacement, (e.node i).span with
  | some x, _ => x
  | none, none => t.addedLayout e (t.indentAt t.source.utf8ByteSize) i
  | none, some s =>
    if (e.children i).isEmpty then s.cut t.source
    else t.pieceChildren e print s.start [] false (e.children i) ++
      ((e.node i).trailing.map fun s => s.cut t.source).getD ""

def pieceTo (t e : SyntaxTree) : Nat → Nat → String
  | 0, _ => ""
  | depth + 1, i => t.piece e (t.pieceTo e depth) i

/-- A node in the edited tree `e`, piece by piece. Only nodes of the unedited tree are printed from
their children, which bounds the depth. -/
def pieced (t e : SyntaxTree) (i : Nat) : String :=
  t.pieceTo e (t.size + 1) i

variable {t e : SyntaxTree} {print print' : Nat → String}

theorem pieceChildren_congr {cs : List Nat}
    (h : ∀ c ∈ cs, (e.node c).leading ≠ none → print c = print' c) (start : Nat)
    (before : List Nat) (afterAdded : Bool) :
    t.pieceChildren e print start before afterAdded cs =
      t.pieceChildren e print' start before afterAdded cs := by
  induction cs generalizing before afterAdded with
  | nil => rfl
  | cons c cs ih =>
    have htail := ih fun d hd => h d (List.mem_cons_of_mem _ hd)
    rw [pieceChildren, pieceChildren]
    cases hl : (e.node c).leading with
    | none => simp only [htail]
    | some l => simp only [htail, h c List.mem_cons_self (by simp [hl])]

theorem piece_of_replacement (h : (e.node i).replacement = some x) : t.piece e print i = x := by
  simp only [piece, h]

theorem piece_of_span (hr : (e.node i).replacement = none) (hs : (e.node i).span = some s) :
    t.piece e print i =
      if (e.children i).isEmpty then s.cut t.source
      else t.pieceChildren e print s.start [] false (e.children i) ++
        ((e.node i).trailing.map fun s => s.cut t.source).getD "" := by
  simp only [piece, hr, hs]

theorem Survives.mem_children (h : t.Survives e)
    (hc : (e.children i).filter (· < t.size) = t.children i) (hm : c ∈ e.children i)
    (hl : (e.node c).leading ≠ none) : c ∈ t.children i := by
  rw [← hc, List.mem_filter, decide_eq_true_iff]
  refine ⟨hm, ?_⟩
  by_contra hlt
  exact hl (h.fresh c (Nat.le_of_not_lt hlt)).2

theorem Survives.child_of_span (h : t.Survives e)
    (hc : (e.children i).filter (· < t.size) = t.children i) (hm : b ∈ e.children i)
    (hs : (e.node b).span = some s) : b ∈ t.children i ∧ (t.node b).span = some s := by
  have hlt : b < t.size := by
    by_contra hlt
    rw [(h.fresh b (Nat.le_of_not_lt hlt)).1] at hs
    cases hs
  refine ⟨?_, ?_⟩
  · rw [← hc, List.mem_filter, decide_eq_true_iff]
    exact ⟨hm, hlt⟩
  · cases h.remains b hlt with
    | kept hn _ => rw [← hs, hn]
    | replaced hs' _ _ => cases hs'.symm.trans hs

theorem piece_congr (h : t.Survives e) (hi : i < t.size)
    (hp : ∀ c ∈ t.children i, print c = print' c) : t.piece e print i = t.piece e print' i := by
  cases h.remains i hi with
  | replaced _ hr _ => rw [piece_of_replacement hr, piece_of_replacement hr]
  | kept hn hc =>
    have hchildren : ∀ start, t.pieceChildren e print start [] false (e.children i) =
        t.pieceChildren e print' start [] false (e.children i) := fun start =>
      pieceChildren_congr (fun c hm hl => hp c (h.mem_children hc hm hl)) start [] false
    simp only [piece, hchildren]

theorem pieceTo_eq (h : t.Survives e) (ha : t.Ascending) (i : Nat) : i < t.size → ∀ d d',
    t.size - i < d → t.size - i < d' → t.pieceTo e d i = t.pieceTo e d' i := by
  induction i using ha.induction with
  | step i ih =>
    intro hi d d' hd hd'
    obtain ⟨d, rfl⟩ := Nat.exists_eq_succ_of_ne_zero (Nat.ne_zero_of_lt hd)
    obtain ⟨d', rfl⟩ := Nat.exists_eq_succ_of_ne_zero (Nat.ne_zero_of_lt hd')
    apply piece_congr h hi
    intro c hm
    have hlt := ha i c hm
    exact ih c hm hlt.2 d d' (by omega) (by omega)

theorem pieced_eq (h : t.Survives e) (ha : t.Ascending) (hi : i < t.size) :
    t.pieced e i = t.piece e (t.pieced e) i := by
  apply piece_congr h hi
  intro c hm
  have hlt := ha i c hm
  exact pieceTo_eq h ha c hlt.2 _ _ (by omega) (by omega)

theorem pieceChildren_tiles (print : Nat → String) (start : Nat) (htile : t.Tiles cursor cs stop)
    (hv : Span.Fits ⟨cursor, cursor⟩ t.source)
    (hl : ∀ c ∈ cs, (e.node c).leading = (t.node c).leading)
    (hp : ∀ c ∈ cs, ∀ s, (t.node c).span = some s → print c = s.cut t.source)
    (before : List Nat) :
    (Span.mk cursor stop).cut? t.source =
      some (t.pieceChildren e print start before false cs) := by
  induction cs generalizing cursor before with
  | nil =>
    obtain rfl : cursor = stop := htile
    exact Span.cut?_empty hv
  | cons c cs ih =>
    obtain ⟨s, hs, hfs, hlead, hfit, htail⟩ := htile
    have hrest := ih htail hfs.empty_stop (fun d hd => hl d (List.mem_cons_of_mem _ hd))
      (fun d hd => hp d (List.mem_cons_of_mem _ hd)) (c :: before)
    obtain ⟨g, hg⟩ := hfit.cut?_eq
    obtain ⟨x, hx⟩ := hfs.cut?_eq
    have hprint : print c = x := by rw [hp c List.mem_cons_self s hs, Span.cut, hx]; rfl
    have hgap : t.gapText start false ((Span.mk cursor s.start).cut t.source) = g := by
      rw [Span.cut, hg]
      rfl
    rw [pieceChildren, (hl c List.mem_cons_self).trans hlead]
    simp only [hprint, hgap]
    exact Span.cut?_append (Span.cut?_append hg hx) hrest

end SyntaxTree

namespace Printer

variable {p : Printer}

theorem children_of_pristine (ht : p.unedited.Tiled) (h : p.unedited.Survives p.tree)
    (hc : (p.tree.children i).filter (· < p.unedited.size) = p.unedited.children i)
    (hp : p.pristineTo (d + 1) i = true) : p.tree.children i = p.unedited.children i := by
  obtain ⟨_, other, hbelow⟩ := pristineTo_succ hp
  rw [← hc, eq_comm, List.filter_eq_self]
  intro c hm
  rw [decide_eq_true_iff]
  by_contra hlt
  obtain ⟨_, o, ho, hso⟩ := hbelow c hm
  rw [(h.fresh c (Nat.le_of_not_lt hlt)).1] at hso
  exact ht.child_span ho hso.symm

/-- A pristine node is its range, piece by piece. -/
theorem pieced_of_pristine (ht : p.unedited.Tiled) (h : p.unedited.Survives p.tree)
    (hi : i < p.unedited.size) (hp : p.pristineTo d i = true)
    (hs : (p.unedited.node i).span = some s) :
    p.unedited.pieced p.tree i = s.cut p.unedited.source := by
  induction d generalizing i s with
  | zero => cases hp
  | succ d ih =>
    obtain ⟨hspan, other, hbelow⟩ := pristineTo_succ hp
    cases h.remains i hi with
    | replaced hs' _ _ => exact absurd hs' hspan
    | kept hn hc =>
      obtain ⟨s', stop, hcov⟩ := ht.covered i hi
      obtain rfl := Option.some.inj (hs.symm.trans hcov.span)
      have hcs := children_of_pristine ht h hc hp
      rw [SyntaxTree.pieced_eq h ht.ascending hi,
        SyntaxTree.piece_of_span (by rw [hn, ← hcov.replacement]) (by rw [hn, ← hs]), hcs]
      split
      · rfl
      · rename_i hne
        have hchildren := SyntaxTree.pieceChildren_tiles (p.unedited.pieced p.tree)
          s.start hcov.tiles hcov.fits.empty_start
          (fun c hm => (h.remains c (ht.ascending i c hm).2).leading_eq)
          (fun c hm sc hsc => ih (ht.ascending i c hm).2 (hbelow c (hcs ▸ hm)).1 hsc) []
        have htrail : (p.tree.node i).trailing = some ⟨stop, s.stop⟩ := by
          have htrail := hcov.trailing
          rw [if_neg hne] at htrail
          rw [hn, ← htrail]
        obtain ⟨y, hy⟩ := hcov.rest.cut?_eq
        have hall := Span.cut?_append hchildren hy
        rw [htrail, Span.cut, hall, Option.map_some, Option.getD_some, Option.getD_some,
          Span.cut, hy]
        rfl

theorem methodHead_eq (p : Printer) (i : Nat) : p.methodHead i = p.tree.headWords i := by
  have hparameters : p.tree.childByField i "parameters" =
      (p.tree.children i).find? fun c => (p.tree.node c).field = some "parameters" := by
    rw [SyntaxTree.childByField]
    congr 1
    funext c
    rw [Bool.eq_iff_iff, beq_iff_eq, decide_eq_true_iff]
  rw [methodHead, hparameters, SyntaxTree.headWords, List.filterMap_eq_flatMap_toList]
  congr 1
  funext c
  split
  · rename_i hfield
    simp [hfield]
  · rename_i hfield
    simp [hfield]
  · rename_i hfield
    simp [hfield]
  · rename_i hparameters hbody hname
    rw [if_neg hname, if_neg (not_or.mpr ⟨hparameters, hbody⟩)]
    rfl

/-- The printer's layout of an added node. -/
theorem fresh_eq (p : Printer) (i : Nat) (indent : String) :
    p.fresh i indent = p.unedited.addedLayout p.tree indent i := by
  have hbody : (p.tree.childByField i "body").isSome = true ↔
      ∃ c ∈ p.tree.children i, (p.tree.node c).field = some "body" := by
    rw [SyntaxTree.childByField, List.find?_isSome]
    simp only [beq_iff_eq]
  rw [fresh, SyntaxTree.addedLayout, methodHead_eq]
  by_cases hkind : p.tree.kind i = "method_declaration"
  · rw [if_neg (by simpa using hkind), if_neg (not_not.mpr hkind)]
    exact if_congr hbody rfl rfl
  · rw [if_pos (by simpa using hkind), if_pos hkind]

theorem gapText?_eq (hv : Span.Fits ⟨start, start⟩ p.unedited.source) (after : Bool)
    (gap : String) : p.gapText? start after gap = some (p.unedited.gapText start after gap) := by
  rw [gapText?, SyntaxTree.gapText, lineIndent_eq_some hv]
  split <;> rfl

theorem memberIndent_eq (h : p.unedited.Survives p.tree)
    (hcov : p.unedited.Covered i s stop) (hs : (p.tree.node i).span = some s)
    (hc : (p.tree.children i).filter (· < p.unedited.size) = p.unedited.children i)
    (hb : ∀ b ∈ before, b ∈ p.tree.children i) (ht : p.unedited.Tiled) :
    p.memberIndent i before = some (p.unedited.addedIndent p.tree s.start before) := by
  have hstart : ((p.tree.node i).span.map (·.start)).getD 0 = s.start := by
    rw [hs]
    rfl
  have hline : ((p.lineIndent s.start).bind fun indent => some (indent ++ indentUnit)) =
      some (p.unedited.indentAt s.start ++ "    ") := by
    rw [lineIndent_eq_some hcov.fits.empty_start]
    rfl
  rw [memberIndent, hstart, SyntaxTree.addedIndent]
  cases hm : before.findSome? fun b =>
      if (p.tree.node b).named then (p.tree.node b).span else none with
  | none => exact hline
  | some sb =>
    obtain ⟨b, hbefore, hnamed⟩ := List.exists_of_findSome?_eq_some hm
    have hsb : (p.tree.node b).span = some sb := by
      split at hnamed
      · exact hnamed
      · cases hnamed
    obtain ⟨hmem, hsb'⟩ := h.child_of_span hc (hb b hbefore) hsb
    obtain ⟨s', hs', hfit⟩ := ht.exists_span (ht.ascending i b hmem).2
    obtain rfl := Option.some.inj (hsb'.symm.trans hs')
    have hbetween := hcov.tiles.start_fits hcov.fits.empty_start hmem hsb'
    have hown := onOwnLine_eq_some hfit hbetween
    simp only [hown]
    cases ((Span.mk s.start sb.start).cut p.unedited.source).toList.contains '\n' with
    | true => exact lineIndent_eq_some hfit.empty_start
    | false => exact hline

theorem leading_fits (hcov : p.unedited.Covered i s stop) (hc : c ∈ p.unedited.children i)
    (hl : (p.unedited.node c).leading = some l) : l.Fits p.unedited.source := by
  obtain ⟨pre, post, hsplit⟩ := List.append_of_mem hc
  have htile := hcov.tiles
  rw [hsplit] at htile
  obtain ⟨mid, _, sc, _, _, hlead, hfit, _⟩ := SyntaxTree.tiles_append.mp htile
  obtain rfl := Option.some.inj (hlead.symm.trans hl)
  exact hfit

theorem printChildren_eq (ht : p.unedited.Tiled) (h : p.unedited.Survives p.tree)
    (hcov : p.unedited.Covered i s stop) (hs : (p.tree.node i).span = some s)
    (hc : (p.tree.children i).filter (· < p.unedited.size) = p.unedited.children i)
    (hp : ∀ c ∈ p.unedited.children i, print c = some (print' c))
    (before cs : List Nat) (hb : ∀ c ∈ before, c ∈ p.tree.children i)
    (hcs : ∀ c ∈ cs, c ∈ p.tree.children i) (after : Bool) :
    p.printChildren print i s.start before after cs =
      some (p.unedited.pieceChildren p.tree print' s.start before after cs) := by
  induction cs generalizing before after with
  | nil => rfl
  | cons c cs ih =>
    have hm := hcs c List.mem_cons_self
    have hrest := ih (c :: before) (List.forall_mem_cons.mpr ⟨hm, hb⟩)
      fun d hd => hcs d (List.mem_cons_of_mem _ hd)
    rw [SyntaxTree.pieceChildren]
    cases hl : (p.tree.node c).leading with
    | some l =>
      have hchild := h.mem_children hc hm (by simp [hl])
      have hl' : (p.unedited.node c).leading = some l := by
        rw [← (h.remains c (ht.ascending i c hchild).2).leading_eq, hl]
      obtain ⟨g, hg⟩ := (leading_fits hcov hchild hl').cut?_eq
      have hcut : l.cut p.unedited.source = g := by
        rw [Span.cut, hg]
        rfl
      rw [printChildren_of_leading hl, slice?, hg, Option.bind_some,
        gapText?_eq hcov.fits.empty_start, hp c hchild, hrest, ← hcut]
      rfl
    | none =>
      rw [printChildren_added hl (memberIndent_eq h hcov hs hc hb ht), hrest, fresh_eq]
      rfl

/-- The printer prints every node of the unedited tree piece by piece. -/
theorem printTo_eq_pieced (ht : p.unedited.Tiled) (h : p.unedited.Survives p.tree) (i : Nat) :
    i < p.unedited.size → ∀ d, p.unedited.size - i < d →
      p.printTo d i = some (p.unedited.pieced p.tree i) := by
  induction i using ht.ascending.induction with
  | step i ih =>
    intro hi d hd
    obtain ⟨d, rfl⟩ := Nat.exists_eq_succ_of_ne_zero (Nat.ne_zero_of_lt hd)
    obtain ⟨s, stop, hcov⟩ := ht.covered i hi
    obtain ⟨x, hx⟩ := hcov.fits.cut?_eq
    have hcut : s.cut p.unedited.source = x := by
      rw [Span.cut, hx]
      rfl
    cases h.remains i hi with
    | replaced hs hr _ =>
      rw [printTo_of_replacement (isPristine_of_no_span hs) hr,
        SyntaxTree.pieced_eq h ht.ascending hi, SyntaxTree.piece_of_replacement hr]
    | kept hn hc =>
      have hs : (p.tree.node i).span = some s := by rw [hn, ← hcov.span]
      have hr : (p.tree.node i).replacement = none := by rw [hn, ← hcov.replacement]
      cases hpristine : p.isPristine i with
      | true =>
        rw [printTo_of_pristine hpristine hs, slice?, hx,
          pieced_of_pristine ht h hi hpristine hcov.span, hcut]
      | false =>
        rw [printTo_of_span hpristine hr hs, SyntaxTree.pieced_eq h ht.ascending hi,
          SyntaxTree.piece_of_span hr hs]
        have hbelow : ∀ c ∈ p.unedited.children i,
            p.printTo d c = some (p.unedited.pieced p.tree c) := by
          intro c hm
          have hlt := ht.ascending i c hm
          exact ih c hm hlt.2 d (by omega)
        split
        · rw [slice?, hx, hcut]
        · have hchildren := printChildren_eq ht h hcov hs hc hbelow [] (p.tree.children i)
            (List.forall_mem_nil _) (fun _ hm => hm) false
          rw [hchildren, Option.bind_some, hn]
          have htrail := hcov.trailing
          obtain ⟨y, hy⟩ := hcov.rest.cut?_eq
          simp only
          rw [htrail]
          split
          · rfl
          · simp [slice?, Span.cut, hy]

end Printer

namespace SyntaxTree

variable {t e : SyntaxTree}

theorem Altered.print_eq (h : t.Altered e) (ht : Tiled t) :
    e.print? t = some (t.pieced e root) := by
  have hs := h.survives ht.ascending
  have hle := hs.size_le
  exact Printer.printTo_eq_pieced (p := .between e t) ht hs root ht.root_lt_size _
    (by simp only [Printer.between]; omega)

theorem Altered.treelike (h : t.Altered e) (ht : t.Treelike) : e.Treelike := by
  induction h with
  | refl => exact ht
  | tail _ hstep ih =>
    cases hstep with
    | replace _ text => exact ih.replaceWithText _ text
    | push hn => exact ih.push hn.children
    | insert hparent hchild _ hfree hapart hindex =>
      apply ih.insertChild hparent hchild _ (mt ih.reaches_iff.mp hapart) hindex
      intro i hi
      cases (ih.parent_of_mem hi).symm.trans hfree

theorem Ranked.textTo_eq (h : Ranked t height) (hd : height i < d) (hd' : height i < d') :
    t.textTo d i = t.textTo d' i := by
  induction d generalizing i d' with
  | zero => omega
  | succ d ih =>
    cases d' with
    | zero => omega
    | succ d' =>
      have hbelow : (t.children i).map (t.textTo d) = (t.children i).map (t.textTo d') := by
        apply List.map_congr_left
        intro c hc
        have hlt := h.child_lt hc
        exact ih (by omega) (by omega)
      rw [textTo, textTo, hbelow]

/-- The text of a node that is not in the source is what was put in its place, or that of its
children with blanks between them. -/
theorem Treelike.text_of_no_span (ht : t.Treelike) (hs : (t.node i).span = none) :
    t.text i = (t.node i).replacement.getD (" ".intercalate ((t.children i).map t.text)) := by
  obtain ⟨height, hr⟩ := ht.ranked
  have hbelow : (t.children i).map (t.textTo t.size) = (t.children i).map t.text := by
    apply List.map_congr_left
    intro c hc
    have hlt := hr.child_lt hc
    have hle := hr.le_size i
    exact hr.textTo_eq (by omega) (by omega)
  rw [text, textTo, hs, hbelow]
  cases (t.node i).replacement <;> rfl

/-- An edited tree prints piece by piece, so that no slice leaves the source or cuts a character.
It would do so with any other index of the nodes that count as pristine, one that takes two nodes
for the same included. A method that was added is in the layout of added methods, also if a text
was put in its place later on. -/
theorem print_altered (origin source : String) (c : Concrete) (e : SyntaxTree)
    (hw : c.WellFormed source) (h : (c.lower origin source).Altered e) :
    e.print? (c.lower origin source) = some ((c.lower origin source).pieced e root) ∧
      (∀ index, (Printer.mk e (c.lower origin source) index).printTo (e.size + 1) root =
        some ((c.lower origin source).pieced e root)) ∧
      (∀ i < (c.lower origin source).size, (c.lower origin source).pieced e i =
        (c.lower origin source).piece e ((c.lower origin source).pieced e) i) ∧
      ∀ i, (c.lower origin source).size ≤ i →
        e.text i = (e.node i).replacement.getD (" ".intercalate ((e.children i).map e.text)) := by
  have ht := c.lower_tiled origin hw
  have htree := h.treelike (c.lower_growing origin source).toTreelike
  generalize c.lower origin source = t at ht h ⊢
  have hs := h.survives ht.ascending
  have hdepth : t.size - root < e.size + 1 := by
    have hle := hs.size_le
    omega
  refine ⟨?_, fun index => ?_, fun i hi => pieced_eq hs ht.ascending hi, fun i hi => ?_⟩
  · exact Printer.printTo_eq_pieced (p := .between e t) ht hs root ht.root_lt_size _ hdepth
  · exact Printer.printTo_eq_pieced (p := .mk e t index) ht hs root ht.root_lt_size _ hdepth
  · exact htree.text_of_no_span (hs.fresh i hi).1

def emptyBlock : Concrete :=
  .node "program" true none ⟨0, 3⟩
    [.node "name" true none ⟨0, 1⟩ [],
      .node "block" true none ⟨1, 3⟩
        [.node "\x7b" false none ⟨1, 2⟩ [], .node "\x7d" false none ⟨2, 3⟩ []]]

def grownBlock : SyntaxTree :=
  (((emptyBlock.lower "a.php" "a\x7b\x7d").replaceWithText 1 "bc").pushStub "f").insertChild 2 1 5

def filledBlock : SyntaxTree :=
  (grownBlock.push (.leaf "comment" "#")).insertChild 2 2 11

theorem altered_filledBlock : (emptyBlock.lower "a.php" "a\x7b\x7d").Altered filledBlock := by
  have hrenamed : (emptyBlock.lower "a.php" "a\x7b\x7d").Altered
      ((emptyBlock.lower "a.php" "a\x7b\x7d").replaceWithText 1 "bc") :=
    .single (.replace (by decide) "bc")
  have hgrown : (emptyBlock.lower "a.php" "a\x7b\x7d").Altered grownBlock :=
    (hrenamed.pushStub (by decide) "f").tail
      (.insert (by decide) (by decide) (by decide) (by decide) (by decide) (by decide))
  exact (hgrown.tail (.push (SyntaxNode.isNew_leaf "comment" "#"))).tail
    (.insert (by decide) (by decide) (by decide) (by decide) (by decide) (by decide))

theorem print_altered_filledBlock :
    emptyBlock.WellFormed "a\x7b\x7d" ∧
      (emptyBlock.lower "a.php" "a\x7b\x7d").Altered filledBlock ∧
      filledBlock.print? (emptyBlock.lower "a.php" "a\x7b\x7d") =
        some "bc\x7b\n    public function f()\n    \x7b\n    \x7d\n\n    #\n\x7d" := by
  have hw : emptyBlock.WellFormed "a\x7b\x7d" := by decide
  refine ⟨hw, altered_filledBlock, ?_⟩
  rw [(print_altered _ _ _ _ hw altered_filledBlock).1]
  decide +kernel

/-- A method that has nothing below it comes into the block, and a text takes its place. -/
def replacedMethod : SyntaxTree :=
  (((emptyBlock.lower "a.php" "a\x7b\x7d").push (.branch "method_declaration")).insertChild
    2 1 5).replaceWithText 5 "function f() \x7b\x7d"

/-- The text of an added method is not in the print. -/
theorem print_replacedMethod :
    emptyBlock.WellFormed "a\x7b\x7d" ∧
      (emptyBlock.lower "a.php" "a\x7b\x7d").Altered replacedMethod ∧
      replacedMethod.children root = [1, 2] ∧ replacedMethod.children 2 = [3, 5, 4] ∧
      (∀ i < 5, (replacedMethod.node i).replacement = none) ∧
      (replacedMethod.node 5).replacement = some "function f() \x7b\x7d" ∧
      replacedMethod.print? (emptyBlock.lower "a.php" "a\x7b\x7d") =
        some "a\x7b\n    ;\n\x7d" ∧
      ¬ ∃ before after, replacedMethod.print? (emptyBlock.lower "a.php" "a\x7b\x7d") =
        some (before ++ "function f() \x7b\x7d" ++ after) := by
  have hw : emptyBlock.WellFormed "a\x7b\x7d" := by decide
  have haltered : (emptyBlock.lower "a.php" "a\x7b\x7d").Altered replacedMethod :=
    ((Relation.ReflTransGen.single (.push (SyntaxNode.isNew_branch "method_declaration"))).tail
      (.insert (by decide) (by decide) (by decide) (by decide) (by decide) (by decide))).tail
        (.replace (by decide) _)
  have hprint : replacedMethod.print? (emptyBlock.lower "a.php" "a\x7b\x7d") =
      some "a\x7b\n    ;\n\x7d" := by
    rw [haltered.print_eq (emptyBlock.lower_tiled "a.php" hw)]
    decide +kernel
  refine ⟨hw, haltered, by decide, by decide, by decide, by decide, hprint, ?_⟩
  · rintro ⟨before, after, h⟩
    rw [hprint] at h
    have hletter : 'f' ∈ "a\x7b\n    ;\n\x7d".toList := by
      rw [Option.some.inj h, String.toList_append, String.toList_append]
      exact List.mem_append_left _ (List.mem_append_right _ (by decide))
    revert hletter
    decide

end SyntaxTree

end Scaffold
