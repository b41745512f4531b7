import Scaffold.Proofs.Extraction.Selection
import Scaffold.Proofs.Merge.Splicing
import Scaffold.Proofs.Tree.Inheritance

namespace Scaffold
set_option autoImplicit true

namespace SyntaxNode

variable {n : SyntaxNode} {P : String → Prop} {k : String}

theorem madeOf_leaf (hx : P x) : (leaf k x).MadeOf P source := by
  refine ⟨nofun, nofun, nofun, ?_⟩
  rintro y ⟨⟩
  exact hx

theorem madeOf_branch : (branch k).MadeOf P source :=
  ⟨nofun, nofun, nofun, nofun⟩

theorem MadeOf.anonymous (h : n.MadeOf P source) : n.anonymous.MadeOf P source :=
  ⟨h.span, h.leading, h.trailing, h.replacement⟩

theorem MadeOf.withField (h : n.MadeOf P source) (field : String) :
    (n.withField field).MadeOf P source :=
  ⟨h.span, h.leading, h.trailing, h.replacement⟩

end SyntaxNode

namespace SyntaxTree

variable {t : SyntaxTree} {P : String → Prop}

theorem madeOf_stubParts (hP : Inherited P) (hn : P name) (source : String) :
    ∀ n ∈ stubParts name, n.MadeOf P source := by
  have hword : ∀ {kind x}, OneLine x → (SyntaxNode.leaf kind x).MadeOf P source :=
    fun hx => SyntaxNode.madeOf_leaf (hP.oneLine hx)
  simp only [stubParts, List.forall_mem_cons]
  refine ⟨hword (by decide), (hword (by decide)).anonymous, ?_, ?_, ?_,
    List.forall_mem_nil _⟩
  · exact (SyntaxNode.madeOf_leaf hn).withField "name"
  · exact (hword (by decide)).withField "parameters"
  · exact (hword (by decide)).withField "body"

theorem MadeOf.pushChild {n : SyntaxNode} (h : t.MadeOf P) (parent : Nat)
    (hn : n.MadeOf P t.source) : (t.pushChild parent n).MadeOf P :=
  (h.push hn).insertChild _ _ _

theorem MadeOf.pushStub (h : t.MadeOf P) (hP : Inherited P) (hn : P name) :
    (t.pushStub name).MadeOf P := by
  refine List.foldlRecOn _ _ (h.push SyntaxNode.madeOf_branch) ?_
  intro u hu n hm
  exact hu.pushChild t.size (madeOf_stubParts hP hn u.source n hm)

theorem MadeOf.addStub (h : t.MadeOf P) (hP : Inherited P) (body : Nat) (hn : P name) :
    (addStub body t name).MadeOf P :=
  (h.pushStub hP hn).insertChild _ _ _

theorem MadeOf.rename (h : t.MadeOf P) (i : Nat) (hn : P name) : (t.rename i name).MadeOf P := by
  rw [SyntaxTree.rename]
  split
  · exact h.replaceWithText _ hn
  · exact h

variable {u : ClassUpdate}

theorem MadeOf.visit (h : t.MadeOf P) (hP : Inherited P) (hnamesp : P u.namesp)
    (hname : P u.className) (hmethods : ∀ m ∈ u.methods, P m) (target i : Nat) :
    (u.visit target t i).MadeOf P := by
  rw [ClassUpdate.visit]
  split
  · exact h.rename i hnamesp
  · split
    · have hrenamed := h.rename i hname
      dsimp only
      split
      · refine List.foldlRecOn _ _ hrenamed ?_
        intro v hv m hm
        exact hv.addStub hP _ (hmethods m hm)
      · exact hrenamed
    · exact h

theorem MadeOf.update (h : t.MadeOf P) (hP : Inherited P) (hnamesp : P u.namesp)
    (hname : P u.className) (hmethods : ∀ m ∈ u.methods, P m) (target : Nat) :
    (t.update u target).MadeOf P := by
  refine List.foldlRecOn _ _ h ?_
  intro v hv i _
  exact hv.visit hP hnamesp hname hmethods target i

theorem source_rename (t : SyntaxTree) (i : Nat) (name : String) :
    (t.rename i name).source = t.source := by
  rw [SyntaxTree.rename]
  split <;> rfl

theorem source_insertChild (t : SyntaxTree) (parent index child : Nat) :
    (t.insertChild parent index child).source = t.source :=
  rfl

theorem source_addStub (body : Nat) (t : SyntaxTree) (name : String) :
    (addStub body t name).source = t.source := by
  rw [addStub, source_insertChild]
  exact (pushed_pushStub t name).source_eq

theorem source_visit (u : ClassUpdate) (target : Nat) (t : SyntaxTree) (i : Nat) :
    (u.visit target t i).source = t.source := by
  rw [ClassUpdate.visit]
  split
  · exact source_rename t i u.namesp
  · split
    · have hrenamed := source_rename t i u.className
      dsimp only
      split
      · refine List.foldlRecOn (motive := fun v : SyntaxTree => v.source = t.source) _ _ hrenamed ?_
        intro v hv m _
        exact (source_addStub _ v m).trans hv
      · exact hrenamed
    · rfl

theorem source_update (t : SyntaxTree) (u : ClassUpdate) (target : Nat) :
    (t.update u target).source = t.source := by
  refine List.foldlRecOn (motive := fun v : SyntaxTree => v.source = t.source) _ _ rfl ?_
  intro v hv i _
  exact (source_visit u target v i).trans hv

/-- In a text in which all line feeds stand behind returns the first line ends with a return. -/
theorem lineEnd_of_returned (h : Returned t.source) (hn : '\n' ∈ t.source.toList) :
    t.lineEnd = "\r\n" := by
  obtain ⟨line, rest, hs, hline⟩ := List.eq_append_cons_of_mem hn
  have htake : (line ++ '\n' :: rest).takeWhile (· != '\n') = line := by
    rw [List.takeWhile_append_of_pos, List.takeWhile_cons_of_neg (by decide), List.append_nil]
    intro c hc
    rw [bne_iff_ne]
    rintro rfl
    exact hline hc
  rw [lineEnd, hs, htake, h.getLast?_eq hs, if_pos]
  simp

theorem lineEnd_of_noReturn (h : '\r' ∉ t.source.toList) : t.lineEnd = "\n" := by
  rw [lineEnd, if_neg]
  rw [Bool.and_eq_true, beq_iff_eq]
  rintro ⟨_, hlast⟩
  exact h ((List.takeWhile_prefix _).subset (List.mem_of_getLast? hlast))

/-- An updated tree has a print, which has every property that passes on from the cuts at node
boundaries, the line end and texts of one line. -/
theorem Tiled.print_update_yields (ht : t.Tiled) (hroot : (t.node root).leading = some ⟨0, 0⟩)
    (hP : Inherited P) (hend : P t.lineEnd)
    (hcut : ∀ (s : Span) x, s.cut? t.source = some x → s.start ∈ t.boundaries → P x)
    (hnamesp : OneLine u.namesp) (hname : OneLine u.className)
    (hmethods : ∀ m ∈ u.methods, OneLine m) (target : Nat) :
    Yields P ((t.update u target).print? t) := by
  have hmade : t.MadeOf P := by
    refine ht.madeOf hroot ?_
    intro s hs hstart
    obtain ⟨x, hx⟩ := hs.cut?_eq
    exact ⟨x, hx, hcut s x hx hstart⟩
  have hsupplied : (Printer.between (t.update u target) t).Supplied P :=
    { inherited := hP
      newline := hend
      source_eq := source_update t u target
      tree := hmade.update hP (hP.oneLine hnamesp) (hP.oneLine hname)
        (fun m hm => hP.oneLine (hmethods m hm)) target }
  exact hsupplied.printTo _ _

/-- A tree with a class takes any tests, and the result prints with the line ends of the source: if
all its line feeds stand behind returns, and no node starts or ends between the two, then this is so
in the print, and if the source has no returns the print has none. -/
theorem merge_keeps_line_ends (origin source namesp className : String) (methods : List String)
    (c : Concrete) (hw : c.WellFormed source)
    (hclass : (c.lower origin source).hasClass = true) (hnamesp : OneLine namesp)
    (hname : OneLine className) (hmethods : ∀ m ∈ methods, OneLine m) :
    ∃ m text, (c.lower origin source).merge namesp className methods = .ok m ∧
      m.print? (c.lower origin source) = some text ∧
      ('\n' ∈ source.toList → Returned source →
        (∀ o ∈ (c.lower origin source).boundaries, ¬ SplitsLineEnd source o) → Returned text) ∧
      ('\r' ∉ source.toList → '\r' ∉ text.toList) := by
  have ht := c.lower_tiled origin hw
  have hroot := c.leading_root origin source
  have hsource : (c.lower origin source).source = source := rfl
  generalize c.lower origin source = t at ht hroot hsource hclass ⊢
  subst hsource
  have hne : t.targetClass className ≠ none := by
    rw [ne_eq, targetClass_eq_none_iff, ← List.isEmpty_iff]
    simpa [hasClass] using hclass
  obtain ⟨target, htarget⟩ := Option.ne_none_iff_exists'.mp hne
  have hprint : ∀ {P : String → Prop}, Inherited P → P t.lineEnd →
      (∀ (s : Span) x, s.cut? t.source = some x → s.start ∈ t.boundaries → P x) →
        Yields P ((t.update ⟨namesp, className, methods⟩ target).print? t) :=
    fun hP hend hcut => ht.print_update_yields hroot hP hend hcut hnamesp hname hmethods target
  obtain ⟨text, htext, -⟩ := hprint (P := fun _ => True) ⟨fun _ => trivial, fun _ _ => trivial⟩
    trivial fun _ _ _ _ => trivial
  refine ⟨_, text, by rw [merge, htarget], htext, ?_, ?_⟩
  · intro hn hr hsplit
    have hend : Returned t.lineEnd := by
      rw [lineEnd_of_returned hr hn]
      decide
    obtain ⟨y, hy, hreturned⟩ := hprint inherited_returned hend fun s x hx hs =>
      Span.returned_of_cut? hx hr (hsplit _ hs)
    obtain rfl := Option.some.inj (hy.symm.trans htext)
    exact hreturned
  · intro hr
    have hend : '\r' ∉ t.lineEnd.toList := by
      rw [lineEnd_of_noReturn hr]
      decide
    obtain ⟨y, hy, hnone⟩ := hprint inherited_noReturn hend fun s x hx _ =>
      Span.noReturn_of_cut? hx hr
    obtain rfl := Option.some.inj (hy.symm.trans htext)
    exact hnone

def returnedClassSource : String := "class A\r\n\x7b\r\n\x7d\r\n"

def returnedClass : Concrete :=
  .node "program" true none ⟨0, 15⟩
    [.node "class_declaration" true none ⟨0, 13⟩
      [.node "class" false none ⟨0, 5⟩ [],
        .node "name" true (some "name") ⟨6, 7⟩ [],
        .node "declaration_list" true (some "body") ⟨9, 13⟩
          [.node "\x7b" false none ⟨9, 10⟩ [], .node "\x7d" false none ⟨12, 13⟩ []]]]

theorem merge_keeps_line_ends_returned :
    returnedClass.WellFormed returnedClassSource ∧
    (∀ o ∈ (returnedClass.lower "A.php" returnedClassSource).boundaries,
      ¬ SplitsLineEnd returnedClassSource o) ∧
    ∃ m text,
      (returnedClass.lower "A.php" returnedClassSource).merge "T" "ATest" ["testX"] = .ok m ∧
      m.print? (returnedClass.lower "A.php" returnedClassSource) = some text ∧
      text = "class ATest\r\n\x7b\r\n    public function testX()\r\n    \x7b\r\n    \x7d\r\n\x7d\r\n" ∧
      Returned text := by
  have hw : returnedClass.WellFormed returnedClassSource := by decide
  have hs : (returnedClass.lower "A.php" returnedClassSource).PhpShaped :=
    ⟨by decide, by decide, by decide⟩
  have hsplit : ∀ o ∈ (returnedClass.lower "A.php" returnedClassSource).boundaries,
      ¬ SplitsLineEnd returnedClassSource o := by decide
  have htarget :
      (returnedClass.lower "A.php" returnedClassSource).targetClass "ATest" = some 1 := by decide
  obtain ⟨m, text, hm, htext, hreturned, _⟩ := merge_keeps_line_ends "A.php" returnedClassSource
    "T" "ATest" ["testX"] returnedClass hw (by decide) (by decide) (by decide) (by decide)
  obtain ⟨x, hprint, hsplice⟩ := (returnedClass.lower_tiled "A.php" hw).print_update hs
    (mem_classes_of_targetClass htarget) ⟨"T", "ATest", ["testX"]⟩
  have hupdate := hm
  rw [merge, htarget] at hupdate
  obtain rfl := Except.ok.inj hupdate
  obtain rfl := Option.some.inj (hprint.symm.trans htext)
  refine ⟨hw, hsplit, _, x, hm, htext, ?_, hreturned (by decide) (by decide) hsplit⟩
  apply Option.some.inj
  rw [← hsplice]
  decide +kernel

end SyntaxTree

end Scaffold
