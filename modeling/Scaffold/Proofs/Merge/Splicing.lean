import Scaffold.Proofs.Merge.Layout

namespace Scaffold
set_option autoImplicit true

variable {t m : SyntaxTree}

namespace SyntaxTree

/-- The texts that an update of a target class puts in place of names and of the gap before the
closing brace. -/
def ClassUpdate.rewriting (u : ClassUpdate) (t : SyntaxTree) (target : Nat) : Rewriting where
  text i :=
    if t.isNamespaceName i then some u.namesp
    else if t.childByField target "name" == some i then some u.className
    else none
  gap i :=
    if u.methods.isEmpty then none
    else (t.childByField target "body").bind fun body =>
      if (t.children body).getLast? == some i then some (t.closingText body i u.methods) else none

section Target

variable {target name body close : Nat} {front : List Nat}

theorem ClassAt.text_rewriting (hc : ClassAt t target name body front close) (u : ClassUpdate)
    (hi : t.isNamespaceName i = false) (hn : i ≠ name) : (u.rewriting t target).text i = none := by
  simp [ClassUpdate.rewriting, hi, hc.name_eq, hn.symm]

theorem ClassAt.gap_rewriting (hc : ClassAt t target name body front close) (u : ClassUpdate)
    (hi : i ≠ close) : (u.rewriting t target).gap i = none := by
  simp [ClassUpdate.rewriting, hc.body_eq, hc.children_eq, hi.symm]

theorem ClassAt.gap_rewriting_close (hc : ClassAt t target name body front close)
    (u : ClassUpdate) (hm : u.methods ≠ []) :
    (u.rewriting t target).gap close = some (t.closingText body close u.methods) := by
  simp [ClassUpdate.rewriting, hc.body_eq, hc.children_eq, hm]

theorem ClassAt.editsBelow_name (hc : ClassAt t target name body front close)
    (hp : Preordered t) (hs : PhpShaped t) (u : ClassUpdate) (hd : t.isDeclaration d = true)
    (hn : t.childByField d "name" = some n) : (u.rewriting t target).editsBelow t n = [] := by
  rw [Rewriting.editsBelow, List.flatMap_eq_nil_iff]
  intro c hcn
  rw [Rewriting.editsFrom, List.flatMap_eq_nil_iff]
  intro x hx
  obtain ⟨y, hy, hxy⟩ : ∃ y ∈ t.preorderFrom n, x ∈ t.children y := by
    rcases hp.ascending.ranked.exists_parent c x hx with rfl | ⟨y, hy, hxy⟩
    · exact ⟨n, t.mem_preorderFrom_self n, hcn⟩
    · exact ⟨y, hp.ascending.mem_preorderFrom_child hcn hy, hxy⟩
  have hset : ¬ (t.isNamespaceName x = true ∨ x = name) := by
    intro h
    obtain ⟨z, hz, hzn⟩ := hc.exists_declaration h
    exact hs.notMem_children_of_name hp hd hn hy hxy hz (mem_children_of_childByField hzn)
  rw [not_or, Bool.not_eq_true] at hset
  have hclose : x ≠ close := by
    rintro rfl
    obtain rfl := hp.parent_unique hxy hc.close_mem
    exact hc.body_notMem_name hp hs hd hn hy
  rw [Rewriting.editsAt, hc.text_rewriting u hset.1 hset.2, hc.gap_rewriting u hclose,
    editOf_none, editOf_none, List.append_nil]

theorem Updated.bodyAt (h : Updated t m u name body front close ids)
    (hc : ClassAt t target name body front close) (ht : Tiled t)
    (hb : t.Covered body s stop) : (Printer.between m t).BodyAt body s front close where
  span := by
    change (m.node body).span = some s
    rw [h.body_eq, ← hb.span]
  covered := ⟨stop, hb⟩
  children_eq := hc.children_eq
  front_eq c hm := h.node_of_mem_body hc ht.toPreordered (by simp [hc.children_eq, hm])
  close_leading := by
    change (m.node close).leading = (t.node close).leading
    rw [h.node_of_mem_body hc ht.toPreordered hc.close_mem]

theorem Updated.fate_body (h : Updated t m u name body front close ids)
    (hc : ClassAt t target name body front close) (ht : Tiled t) :
    (Printer.between m t).Fate (u.rewriting t target) body := by
  have hp := ht.toPreordered
  have htext : (u.rewriting t target).text body = none :=
    hc.text_rewriting u (hc.not_namedBy hp hc.body_mem _) hc.name_ne_body.symm
  by_cases hm : u.methods = []
  · refine .kept ?_ htext ?_
    · have hids : ids = [] := by
        have hs := h.stubs
        rw [hm] at hs
        exact List.forall₂_nil_right_iff.mp hs
      have hcs : (t.node body).children = front ++ [close] := hc.children_eq
      change m.node body = t.node body
      rw [h.body_eq, hids, List.append_nil, ← hcs]
    · intro c _
      simp [ClassUpdate.rewriting, hm]
  · obtain ⟨s, stop, hb⟩ := ht.covered body (hp.ascending target body hc.body_mem).2
    have hbody := h.bodyAt hc ht hb
    refine .grown hc.children_eq h.body_eq ?_ ?_ htext ?_ hb.span
      (hc.gap_rewriting_close u hm) (hbody.printChildren_closing ht h.stubs hm)
    · rintro rfl
      exact hm (List.forall₂_nil_left_iff.mp h.stubs)
    · intro a ha
      obtain ⟨n, hstub⟩ := h.exists_stubAt ha
      change (m.node a).leading = none ∧ (m.node a).span = none
      rw [hstub.head]
      exact ⟨rfl, rfl⟩
    · intro c hcf
      apply hc.gap_rewriting
      rintro rfl
      exact hc.front_kind c hcf hc.close_kind

theorem fate_of_replaced {p : Printer} {r : Rewriting} {x : String}
    (hn : p.tree.node i = (p.unedited.node i).replaced x) (ht : r.text i = some x)
    (hb : r.editsBelow p.unedited i = []) : p.Fate r i := by
  refine .replaced ?_ ?_ ?_ ht hb
  · rw [hn]
    rfl
  · rw [hn]
    rfl
  · rw [hn]
    rfl

/-- What an update makes of each node of a tree, as far as printing is concerned. -/
theorem Updated.fate (h : Updated t m u name body front close ids)
    (hc : ClassAt t target name body front close) (ht : Tiled t) (hs : PhpShaped t)
    (hi : i < t.size) : (Printer.between m t).Fate (u.rewriting t target) i := by
  have hp := ht.toPreordered
  cases hns : t.isNamespaceName i with
  | true =>
    obtain ⟨z, _, hk, hz⟩ := namedBy_iff.mp hns
    have hn : (Printer.between m t).tree.node i = (t.node i).replaced u.namesp :=
      h.namespace_eq i hns
    refine fate_of_replaced hn (by simp [ClassUpdate.rewriting, hns]) ?_
    exact hc.editsBelow_name hp hs u (isDeclaration_of_namespace hk) hz
  | false =>
    by_cases hname : i = name
    · subst i
      have hn : (Printer.between m t).tree.node name = (t.node name).replaced u.className :=
        h.name_eq
      refine fate_of_replaced hn (by simp [ClassUpdate.rewriting, hns, hc.name_eq]) ?_
      exact hc.editsBelow_name hp hs u hc.declares hc.name_eq
    · by_cases hbody : i = body
      · subst i
        exact h.fate_body hc ht
      · refine .kept (h.frame i hi hns hname hbody) (hc.text_rewriting u hns hname) ?_
        intro c hm
        apply hc.gap_rewriting
        rintro rfl
        exact hbody (hp.parent_unique hm hc.close_mem)

theorem ClassAt.gap_rewriting_root (hc : ClassAt t target name body front close)
    (hp : Preordered t) (u : ClassUpdate) : (u.rewriting t target).gap root = none := by
  apply hc.gap_rewriting
  have hlt := (hp.ascending body close hc.close_mem).1
  rintro rfl
  exact absurd hlt (Nat.not_lt_zero _)

end Target

/-- An update of a class prints as the source with the texts of the update in their places. -/
theorem Tiled.print_update (ht : Tiled t) (hs : PhpShaped t) (hm : target ∈ t.classes)
    (u : ClassUpdate) :
    ∃ x, (t.update u target).print? t = some x ∧
      splice? t.source t.source.utf8ByteSize 0 ((u.rewriting t target).edits t) = some x := by
  obtain ⟨name, body, front, close, hc⟩ := hs.exists_classAt hm
  obtain ⟨ids, hu⟩ := hc.updated_update ht.toPreordered hs u
  have hsize : t.size < (t.update u target).size + 1 := Nat.lt_succ_of_le hu.size_le
  exact Printer.printTo_root (p := .between _ t) ht (fun i hi => hu.fate hc ht hs hi)
    (hc.gap_rewriting_root ht.toPreordered u) hsize

/-- A merge fails exactly if there is no class declaration. Otherwise the merged tree prints as the
source with nothing replaced but the names of the namespaces, that of the target class and, if
there are methods to add, the gap before the closing brace of its body. -/
theorem merge_print_splices (origin source namesp className : String) (methods : List String)
    (c : Concrete) (hw : c.WellFormed source) (hs : (c.lower origin source).PhpShaped) :
    ((∃ e, (c.lower origin source).merge namesp className methods = .error e) ↔
      ∀ i ∈ (c.lower origin source).preorder,
        (c.lower origin source).kind i ≠ "class_declaration") ∧
    ∀ m, (c.lower origin source).merge namesp className methods = .ok m →
      ∃ target text, (c.lower origin source).targetClass className = some target ∧
        splice? source source.utf8ByteSize 0
          (((ClassUpdate.mk namesp className methods).rewriting (c.lower origin source)
            target).edits (c.lower origin source)) = some text ∧
        m.print? (c.lower origin source) = some text := by
  have ht := c.lower_tiled origin hw
  have hsource : (c.lower origin source).source = source := rfl
  generalize c.lower origin source = t at ht hs hsource ⊢
  subst hsource
  rw [← classes_eq_nil_iff, ← targetClass_eq_none_iff className, merge]
  cases h : t.targetClass className with
  | none =>
    refine ⟨by simp, ?_⟩
    intro m hm
    cases hm
  | some target =>
    refine ⟨by simp, ?_⟩
    intro m hm
    obtain rfl := Except.ok.inj hm
    obtain ⟨x, hx, he⟩ := ht.print_update hs (mem_classes_of_targetClass h)
      ⟨namesp, className, methods⟩
    exact ⟨target, x, rfl, he, hx⟩

theorem merge_print_splices_emptyClass :
    emptyClass.WellFormed emptyClassSource ∧
    (emptyClass.lower "B.php" emptyClassSource).PhpShaped ∧
    ∀ m, (emptyClass.lower "B.php" emptyClassSource).merge "T" "BTest" ["testX"] = .ok m →
      m.print? (emptyClass.lower "B.php" emptyClassSource) =
        some "namespace T; class BTest \x7b\n    public function testX()\n    \x7b\n    \x7d\n\x7d" := by
  have hw : emptyClass.WellFormed emptyClassSource := by decide
  have hs : (emptyClass.lower "B.php" emptyClassSource).PhpShaped :=
    ⟨by decide, by decide, by decide⟩
  refine ⟨hw, hs, ?_⟩
  intro m hm
  obtain ⟨target, text, ht, he, hp⟩ :=
    (merge_print_splices "B.php" emptyClassSource "T" "BTest" ["testX"] emptyClass hw hs).2 m hm
  have htarget : (emptyClass.lower "B.php" emptyClassSource).targetClass "BTest" = some 5 := by
    decide
  obtain rfl : target = 5 := Option.some.inj (ht.symm.trans htarget)
  rw [hp, ← he]
  decide +kernel

end SyntaxTree

end Scaffold
