import Scaffold.Proofs.Merge.Update
import Scaffold.Proofs.Tree.Lines

namespace Scaffold
set_option autoImplicit true

variable {t m : SyntaxTree} {p : Printer}

namespace SyntaxTree

def startOf (t : SyntaxTree) (i : Nat) : Nat :=
  ((t.node i).span.map (·.start)).getD 0

/-- The last member of a body: the last named child before the closing brace. -/
def lastMember (t : SyntaxTree) (body : Nat) : Option Nat :=
  (t.children body).dropLast.reverse.find? fun c => (t.node c).named

/-- The indentation of a stub: that of the last member if a line end stands between the start of
the body and that member, else one step more than that of the body's line. -/
def stubIndent (t : SyntaxTree) (body : Nat) : String :=
  match t.lastMember body with
  | some c =>
    if ((Span.mk (t.startOf body) (t.startOf c)).cut t.source).toList.contains '\n' then
      t.indentAt (t.startOf c)
    else t.indentAt (t.startOf body) ++ Printer.indentUnit
  | none => t.indentAt (t.startOf body) ++ Printer.indentUnit

def stubText (newline indent name : String) : String :=
  "public function " ++ name ++ "()" ++ newline ++ indent ++ "\x7b" ++ newline ++ indent ++ "\x7d"

/-- The texts of some stubs, each on a new line, and behind a blank line if it follows a member. -/
def stubTexts (newline indent : String) : Bool → List String → String
  | _, [] => ""
  | member, name :: names =>
    newline ++ (if member then newline else "") ++ indent ++ stubText newline indent name ++
      stubTexts newline indent true names

/-- The gap before the closing brace, which behind stubs has a line end. -/
def closingGap (t : SyntaxTree) (body close : Nat) : String :=
  let gap := (((t.node close).leading.getD ⟨0, 0⟩).cut t.source)
  if gap.toList.contains '\n' then gap else t.lineEnd ++ t.indentAt (t.startOf body)

/-- What comes to stand before the closing brace of a body that gets some stubs. -/
def closingText (t : SyntaxTree) (body close : Nat) (names : List String) : String :=
  let member := (t.children body).dropLast.getLast?.any fun c => (t.node c).named
  stubTexts t.lineEnd (t.stubIndent body) member names ++ t.closingGap body close

end SyntaxTree

namespace Printer

theorem findSome?_named_span {l : List Nat}
    (h : ∀ c ∈ l, m.node c = t.node c ∧ (t.node c).span ≠ none) :
    (l.findSome? fun c => if (m.node c).named then (m.node c).span else none) =
      (l.find? fun c => (t.node c).named).bind fun c => (t.node c).span := by
  induction l with
  | nil => rfl
  | cons c l ih =>
    have hr := ih fun d hd => h d (List.mem_cons_of_mem _ hd)
    obtain ⟨he, hc⟩ := h c List.mem_cons_self
    rw [List.findSome?_cons, List.find?_cons, he]
    cases hn : (t.node c).named with
    | false => simpa using hr
    | true =>
      obtain ⟨s, hs⟩ := Option.ne_none_iff_exists'.mp hc
      simp [hs]

theorem findSome?_of_no_span {l : List Nat} (h : ∀ a ∈ l, (t.node a).span = none) :
    (l.findSome? fun c => if (t.node c).named then (t.node c).span else none) = none := by
  rw [List.findSome?_eq_none_iff]
  intro a ha
  rw [h a ha]
  simp

end Printer

structure Printer.BodyAt (p : Printer) (body : Nat) (s : Span) (front : List Nat) (close : Nat) :
    Prop where
  span : (p.tree.node body).span = some s
  covered : ∃ stop, p.unedited.Covered body s stop
  children_eq : p.unedited.children body = front ++ [close]
  front_eq : ∀ c ∈ front, p.tree.node c = p.unedited.node c
  close_leading : (p.tree.node close).leading = (p.unedited.node close).leading

namespace Printer

theorem BodyAt.startOf_eq (h : BodyAt p body s front close) :
    p.unedited.startOf body = s.start := by
  obtain ⟨stop, hc⟩ := h.covered
  rw [SyntaxTree.startOf, hc.span]
  rfl

theorem BodyAt.lineIndent_eq (h : BodyAt p body s front close) :
    p.lineIndent s.start = some (p.unedited.indentAt (p.unedited.startOf body)) := by
  obtain ⟨stop, hc⟩ := h.covered
  rw [h.startOf_eq]
  exact lineIndent_eq_some hc.fits.empty_start

theorem BodyAt.member_eq (h : BodyAt p body s front close) (ht : p.unedited.Tiled)
    (hx : ∀ a ∈ extra, (p.tree.node a).span = none) :
    ((extra ++ front.reverse).findSome? fun c =>
        if (p.tree.node c).named then (p.tree.node c).span else none) =
      (p.unedited.lastMember body).bind fun c => (p.unedited.node c).span := by
  have hfront : ∀ c ∈ front.reverse,
      p.tree.node c = p.unedited.node c ∧ (p.unedited.node c).span ≠ none := by
    intro c hc
    rw [List.mem_reverse] at hc
    refine ⟨h.front_eq c hc, ht.child_span (i := body) ?_⟩
    rw [h.children_eq]
    exact List.mem_append_left _ hc
  rw [List.findSome?_append, findSome?_of_no_span hx, Option.none_or,
    findSome?_named_span hfront, SyntaxTree.lastMember, h.children_eq, List.dropLast_concat]

theorem BodyAt.lastMember_fits (h : BodyAt p body s front close)
    (hm : p.unedited.lastMember body = some c) (hc : (p.unedited.node c).span = some sc) :
    Span.Fits ⟨s.start, sc.start⟩ p.unedited.source := by
  obtain ⟨stop, hcov⟩ := h.covered
  refine hcov.tiles.start_fits hcov.fits.empty_start ?_ hc
  exact List.dropLast_subset _ (List.mem_reverse.mp (List.mem_of_find?_eq_some hm))

/-- A stub is indented as the unedited body says, whatever stubs stand before it. -/
theorem BodyAt.memberIndent_eq (h : BodyAt p body s front close) (ht : p.unedited.Tiled)
    (hx : ∀ a ∈ extra, (p.tree.node a).span = none) :
    p.memberIndent body (extra ++ front.reverse) = some (p.unedited.stubIndent body) := by
  have hstart : ((p.tree.node body).span.map (·.start)).getD 0 = s.start := by
    rw [h.span]
    rfl
  have hbody : (p.lineIndent s.start).map (· ++ indentUnit) =
      some (p.unedited.indentAt (p.unedited.startOf body) ++ indentUnit) := by
    rw [h.lineIndent_eq]
    rfl
  rw [memberIndent, hstart, h.member_eq ht hx, SyntaxTree.stubIndent]
  cases hm : p.unedited.lastMember body with
  | none => simpa [Option.map_eq_bind, Function.comp_def] using hbody
  | some c =>
    obtain ⟨stop, hcov⟩ := h.covered
    have hlt : c < p.unedited.size := by
      have hmem := List.dropLast_subset _ (List.mem_reverse.mp (List.mem_of_find?_eq_some hm))
      exact (ht.ascending body c hmem).2
    obtain ⟨sc, hsc, hfc⟩ := ht.exists_span hlt
    have hline := onOwnLine_eq_some hfc (h.lastMember_fits hm hsc)
    have hc : p.unedited.startOf c = sc.start := by
      rw [SyntaxTree.startOf, hsc]
      rfl
    simp only [Option.bind_some, hsc, hline, hc, h.startOf_eq]
    rw [h.startOf_eq] at hbody
    cases ((Span.mk s.start sc.start).cut p.unedited.source).toList.contains '\n' with
    | true => exact lineIndent_eq_some hfc.empty_start
    | false => simpa [Option.map_eq_bind, Function.comp_def] using hbody

theorem intercalate_head (name : String) :
    " ".intercalate ["public", "function", name ++ "()"] = "public function " ++ name ++ "()" := by
  have hwords : "public function " = "public" ++ " " ++ "function" ++ " " := by decide
  rw [String.intercalate_cons_cons, String.intercalate_cons_cons, String.intercalate_singleton,
    hwords]
  simp only [String.append_assoc]

theorem fresh_stub (h : p.tree.StubAt body a name) (indent : String) :
    p.fresh a indent = SyntaxTree.stubText p.newline indent name := by
  obtain ⟨h₁, h₂, h₃, h₄, h₅⟩ := h.nodes
  have hk : p.tree.kind a = "method_declaration" := by
    rw [SyntaxTree.kind, h.head]
    rfl
  have hbody : p.tree.childByField a "body" = some (a + 5) := by
    simp [SyntaxTree.childByField, h.children_eq, h₁, h₂, h₃, h₄, h₅, SyntaxNode.leaf,
      SyntaxNode.withField, SyntaxNode.anonymous]
  have hparams : p.tree.childByField a "parameters" = some (a + 4) := by
    simp [SyntaxTree.childByField, h.children_eq, h₁, h₂, h₃, h₄, SyntaxNode.leaf,
      SyntaxNode.withField, SyntaxNode.anonymous]
  have hhead : p.methodHead a = ["public", "function", name ++ "()"] := by
    simp [methodHead, hparams, h.children_eq, h₁, h₂, h₃, h₄, h₅, SyntaxNode.leaf,
      SyntaxNode.withField, SyntaxNode.anonymous, SyntaxTree.text_of_replacement]
  have hne : ¬ (p.tree.kind a != "method_declaration") = true := by simp [hk]
  rw [fresh, if_neg hne, hhead, hbody, intercalate_head]
  simp only [Option.isSome_some, if_true]
  unfold SyntaxTree.stubText
  rfl

theorem BodyAt.printChildren_stubs (h : BodyAt p body s front close) (ht : p.unedited.Tiled)
    (hl : (p.tree.node close).leading = some l) (hg : p.slice? l = some gap)
    (hs : List.Forall₂ (p.tree.StubAt body) ids names) (extra : List Nat) (after member : Bool)
    (hx : ∀ a ∈ extra, (p.tree.node a).span = none)
    (hm : (extra ++ front.reverse).head?.any (fun b => (p.tree.node b).named) = member) :
    p.printChildren (fun _ => some "") body s.start (extra ++ front.reverse) after
        (ids ++ [close]) =
      (p.gapText? s.start (after || !names.isEmpty) gap).map
        (SyntaxTree.stubTexts p.newline (p.unedited.stubIndent body) member names ++ ·) := by
  induction hs generalizing extra after member with
  | nil =>
    rw [List.nil_append, printChildren_of_leading hl, hg, Option.bind_some, List.isEmpty_nil,
      Bool.not_true, Bool.or_false]
    cases p.gapText? s.start after gap with
    | none => rfl
    | some g => simp [printChildren, SyntaxTree.stubTexts]
  | @cons a name ids names hstub _ ih =>
    have hspan : ∀ b ∈ a :: extra, (p.tree.node b).span = none := by
      intro b hb
      rcases List.mem_cons.mp hb with rfl | hb
      · rw [hstub.head]
        rfl
      · exact hx b hb
    have hlead : (p.tree.node a).leading = none := by
      rw [hstub.head]
      rfl
    have hn : (p.tree.node a).named = true := by
      rw [hstub.head]
      rfl
    have hrest := ih (a :: extra) true true hspan (by simp [hn])
    rw [List.cons_append] at hrest
    rw [List.cons_append, printChildren_added hlead (h.memberIndent_eq ht hx), hrest, hm,
      fresh_stub hstub, Bool.true_or, List.isEmpty_cons, Bool.not_false, Bool.or_true]
    cases p.gapText? s.start true gap with
    | none => rfl
    | some g => simp only [Option.map_some, SyntaxTree.stubTexts, String.append_assoc]

theorem BodyAt.head_named (h : BodyAt p body s front close) :
    front.reverse.head?.any (fun c => (p.tree.node c).named) =
      (p.unedited.children body).dropLast.getLast?.any fun c => (p.unedited.node c).named := by
  rw [h.children_eq, List.dropLast_concat, List.head?_reverse]
  cases hc : front.getLast? with
  | none => rfl
  | some c =>
    rw [Option.any_some, Option.any_some, h.front_eq c (List.mem_of_getLast? hc)]

theorem BodyAt.printChildren_closing (h : BodyAt p body s front close) (ht : p.unedited.Tiled)
    (hs : List.Forall₂ (p.tree.StubAt body) ids names) (hne : names ≠ []) :
    p.printChildren (fun _ => some "") body s.start front.reverse false (ids ++ [close]) =
      some (p.unedited.closingText body close names) := by
  obtain ⟨stop, hc⟩ := h.covered
  have htile := hc.tiles
  rw [h.children_eq] at htile
  obtain ⟨mid, _, sc, hsc, _, hlead, hfit, _⟩ := SyntaxTree.tiles_append.mp htile
  obtain ⟨gap, hg⟩ := hfit.cut?_eq
  have hprint := h.printChildren_stubs ht (h.close_leading.trans hlead) hg hs [] false _ nofun
    h.head_named
  have hafter : (false || !names.isEmpty) = true := by simpa using hne
  have hgap : p.gapText? s.start true gap = some (p.unedited.closingGap body close) := by
    rw [gapText?, SyntaxTree.closingGap, hlead, Option.getD_some, Span.cut, hg, Option.getD_some,
      Bool.true_and, h.lineIndent_eq]
    cases gap.toList.contains '\n' <;> rfl
  rw [List.nil_append] at hprint
  rw [hprint, hafter, hgap]
  rfl

end Printer

end Scaffold
