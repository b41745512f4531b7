import Scaffold.Proofs.Merge.Update
import Scaffold.Proofs.Php.Declared
import Scaffold.Proofs.Text.Ends
import Scaffold.Proofs.Tree.Printing
import Scaffold.Template

namespace Scaffold
set_option autoImplicit true

namespace Concrete

variable {t : SyntaxTree}

theorem exists_of_fieldAt (h : fieldAt (fieldSpans cs) s = some f) :
    ∃ c, cs.find? (·.label == some f) = some c ∧ c.span = s := by
  obtain ⟨⟨g, s'⟩, hfind, rfl⟩ := Option.map_eq_some_iff.mp h
  have hs : s' = s := by simpa using List.find?_some hfind
  obtain ⟨f, _, hf⟩ := List.mem_filterMap.mp (List.mem_of_find?_eq_some hfind)
  obtain ⟨c, hc, he⟩ := Option.map_eq_some_iff.mp hf
  cases he
  exact ⟨c, hc, hs⟩

/-- The first child in a role, if its range is not empty. -/
structure IsFirst (f : String) (cs front : List Concrete) (d : Concrete) (back : List Concrete) :
    Prop where
  split : cs = front ++ d :: back
  front_ne : ∀ c ∈ front, c.label ≠ some f
  label_eq : d.label = some f
  span_lt : d.span.start < d.span.stop

variable {f : String} {cs front back : List Concrete} {d : Concrete}

theorem IsFirst.find?_eq (h : IsFirst f cs front d back) :
    cs.find? (·.label == some f) = some d := by
  rw [h.split, List.find?_append, List.find?_eq_none.mpr (by simpa using h.front_ne),
    Option.none_or, List.find?_cons_of_pos (by simpa using h.label_eq)]

theorem IsFirst.fieldAt_eq (h : IsFirst f cs front d back) (hw : TidyAll source cursor stop cs)
    (hf : f ∈ notedFields) : fieldAt (fieldSpans cs) d.span = some f := by
  have hmem : (f, d.span) ∈ fieldSpans cs :=
    List.mem_filterMap.mpr ⟨f, hf, by rw [h.find?_eq]; rfl⟩
  cases hg : fieldAt (fieldSpans cs) d.span with
  | none =>
    rw [fieldAt, Option.map_eq_none_iff, List.find?_eq_none] at hg
    exact absurd (beq_self_eq_true d.span) (hg _ hmem)
  | some g =>
    obtain ⟨c, hc, hspan⟩ := exists_of_fieldAt hg
    have hlabel : c.label = some g := by simpa using List.find?_some hc
    have hin := List.mem_of_find?_eq_some hc
    rw [h.split] at hw hin
    rcases List.mem_append.mp hin with hin | hin
    · exact absurd hspan (hw.span_ne h.span_lt (List.mem_append_left _ hin))
    · rcases List.mem_cons.mp hin with rfl | hin
      · exact hlabel.symm.trans h.label_eq
      · exact absurd hspan (hw.span_ne h.span_lt (List.mem_append_right _ hin))

theorem IsFirst.fieldAt_ne (h : IsFirst f cs front d back) (hw : TidyAll source cursor stop cs)
    (hc : c ∈ front) : fieldAt (fieldSpans cs) c.span ≠ some f := by
  intro hfield
  obtain ⟨e, he, hspan⟩ := exists_of_fieldAt hfield
  obtain rfl := Option.some.inj (h.find?_eq.symm.trans he)
  rw [h.split] at hw
  exact hw.span_ne h.span_lt (List.mem_append_left _ hc) hspan.symm

theorem LaidAll.exists_child (h : LaidAll t fields parent cursor next cs)
    (hx : x ∈ indices next cs) : ∃ c ∈ cs, (t.node x).field = fieldAt fields c.span := by
  induction cs generalizing cursor next with
  | nil => cases hx
  | cons c cs ih =>
    rcases List.mem_cons.mp hx with rfl | hx
    · refine ⟨c, List.mem_cons_self, ?_⟩
      rw [h.1.node_eq]
      cases c
      rfl
    · obtain ⟨d, hd, hfield⟩ := ih h.2 hx
      exact ⟨d, List.mem_cons_of_mem c hd, hfield⟩

/-- Of a laid tree, the node in a role is the first child in the role. -/
theorem Laid.childByField_eq {c : Concrete} {span : Span}
    (h : Laid t parent field leading span i c) (hw : Tidy source span c)
    (hfirst : IsFirst f c.children front d back) (hf : f ∈ notedFields) :
    ∃ n leading, t.childByField i f = some n ∧ Laid t (some i) (some f) leading d.span n d := by
  cases c with
  | node kind named label own cs =>
    have hlaid := h.2
    have hsplit : cs = front ++ d :: back := hfirst.split
    have hdfield : fieldAt (fieldSpans cs) d.span = some f := hfirst.fieldAt_eq hw.2 hf
    have hfront : ∀ c ∈ front, fieldAt (fieldSpans cs) c.span ≠ some f :=
      fun c hc => hfirst.fieldAt_ne hw.2 hc
    generalize fieldSpans cs = fields at hlaid hdfield hfront
    subst hsplit
    obtain ⟨hbefore, cursor, hd, _⟩ := hlaid.of_append
    rw [hdfield] at hd
    refine ⟨_, _, ?_, hd⟩
    rw [SyntaxTree.childByField, h.children_eq, children, indices_append, List.find?_append,
      List.find?_eq_none.mpr, Option.none_or, indices, List.find?_cons_of_pos]
    · rw [hd.node_eq]
      cases d
      exact beq_self_eq_true _
    · intro x hx hfield
      obtain ⟨c, hc, hcfield⟩ := hbefore.exists_child hx
      rw [beq_iff_eq, hcfield] at hfield
      exact hfront c hc hfield

theorem Laid.childByField_eq_none {c : Concrete} {span : Span}
    (h : Laid t parent field leading span i c) (hf : ∀ d ∈ c.children, d.label ≠ some f) :
    t.childByField i f = none := by
  cases c with
  | node kind named label own cs =>
    rw [SyntaxTree.childByField, h.children_eq, List.find?_eq_none]
    intro x hx hfield
    obtain ⟨c, _, hcfield⟩ := h.2.exists_child hx
    rw [beq_iff_eq, hcfield] at hfield
    obtain ⟨d, hd, _⟩ := exists_of_fieldAt hfield
    exact hf d (List.mem_of_find?_eq_some hd) (by simpa using List.find?_some hd)

theorem IsClass.isFirst_name (h : IsClass source cs) :
    ∃ front name back, IsFirst "name" cs front name back ∧ name.IsNameLeaf source := by
  obtain ⟨front, name, base, body, rfl, hlabels, hname, _⟩ := h
  refine ⟨front, name, base ++ [body], ⟨rfl, ?_, hname.label_eq, hname.span_lt⟩, hname⟩
  exact fun c hc => (hlabels c (List.mem_append_left base hc)).1

theorem IsClass.isFirst_body (h : IsClass source cs) (hw : ∀ c ∈ cs, Tidy source c.span c) :
    ∃ front body, IsFirst "body" cs front body [] ∧ body.IsBraced := by
  obtain ⟨front, name, base, body, rfl, hlabels, hname, hbody⟩ := h
  obtain ⟨opening, members, closing, hcs, hopening, _⟩ := hbody.children
  have hlt : body.span.start < body.span.stop := by
    apply (hw body (by simp)).span_lt _ hopening.2.2
    rw [hcs]
    exact List.mem_cons_self
  refine ⟨front ++ name :: base, body, ⟨by simp, ?_, hbody.label_eq, hlt⟩, hbody⟩
  simp only [List.forall_mem_append, List.forall_mem_cons] at hlabels ⊢
  refine ⟨fun c hc => (hlabels.1 c hc).2, ?_, fun c hc => (hlabels.2 c hc).2⟩
  rw [hname.label_eq]
  decide

/-- A class or namespace has no name or one in which nothing is declared. -/
theorem Formed.isFirst_name (h : Formed source c) (hw : Tidy source s c)
    (hkind : c.kind = "class_declaration" ∨ c.kind = "namespace_definition") :
    (∀ d ∈ c.children, d.label ≠ some "name") ∨
      ∃ front name back, IsFirst "name" c.children front name back ∧
        name.Throughout (·.kind ∉ Php.declaringKinds) := by
  rcases hkind with hkind | hkind
  · obtain ⟨front, name, back, hfirst, hname⟩ :=
      (h.isClass (SyntaxTree.isExtracted_iff.mpr (.inl hkind))).isFirst_name
    refine .inr ⟨front, name, back, hfirst, throughout_of_leaf hname.children_eq ?_⟩
    rw [hname.kind_eq]
    decide
  · rcases h.isNamespace hkind with hnone | ⟨front, name, back, hsplit, hlabels, hlabel, _, hplain,
      first, more, hchildren, hlt⟩
    · exact .inl hnone
    · have hname : name.span.start < name.span.stop := by
        refine (hw.of_mem (d := name) ?_).span_lt (d := first) ?_ hlt
        · rw [hsplit]
          exact List.mem_append_right front List.mem_cons_self
        · rw [hchildren]
          exact List.mem_cons_self
      exact .inr ⟨front, name, back, ⟨hsplit, hlabels, hlabel, hname⟩, hplain⟩

theorem Laid.isClassBody {span : Span} (h : Laid t parent field leading span i c)
    (hc : c.IsBraced) : t.isClassBody i = true := by
  obtain ⟨opening, members, closing, hcs, hopening, hclosing, hmembers⟩ := hc.children
  cases c with
  | node kind named label own cs =>
    have hlaid := h.2
    obtain rfl : cs = opening :: (members ++ [closing]) := hcs
    have hkind : t.kind i = "declaration_list" := h.kind_eq.trans hc.kind_eq
    have hkinds : (t.children i).map t.kind =
        "\x7b" :: (members.map Concrete.kind ++ ["\x7d"]) := by
      rw [h.children_eq, children, hlaid.map_kind]
      simp [hopening.1, hclosing]
    have hfirst : (t.children i).head? = some (i + 1) := by rw [h.children_eq]; rfl
    have hbrace : t.kind (i + 1) = "\x7b" := hlaid.1.kind_eq.trans hopening.1
    have hnamed : (t.node (i + 1)).named = false := by
      rw [hlaid.1.node_eq]
      cases opening
      exact hopening.2.1
    have hlast : (t.children i).getLast?.map t.kind = some "\x7d" := by
      rw [← List.getLast?_map, hkinds, ← List.cons_append, List.getLast?_concat]
    obtain ⟨last, hlast, hclose⟩ := Option.map_eq_some_iff.mp hlast
    have hnone : (members.map Concrete.kind).count "\x7d" = 0 := by
      rw [List.count_eq_zero]
      simpa using hmembers
    have hcount : (t.children i).countP (fun c => t.kind c == "\x7d") = 1 := by
      have hmap : ((t.children i).map t.kind).count "\x7d" = 1 := by
        rw [hkinds, List.count_cons_of_ne (by decide), List.count_append, hnone,
          List.count_singleton_self]
      rwa [List.count, List.countP_map] at hmap
    simp [SyntaxTree.isClassBody, hkind, hfirst, hbrace, hnamed, hlast, hclose, hcount]

/-- In a laid tree without declarations, no node is one. -/
theorem Laid.isDeclaration_eq_false (ha : t.Ascending) {span : Span}
    (h : Laid t parent field leading span i c) (hc : c.Throughout (·.kind ∉ Php.declaringKinds))
    (hx : x ∈ t.preorderFrom i) : t.isDeclaration x = false := by
  rw [h.preorderFrom_eq ha, List.mem_range'_1] at hx
  obtain ⟨d, _, _, _, _, hd, hplain⟩ := h.exists_at
    (P := fun _ c => c.Throughout (·.kind ∉ Php.declaringKinds)) Throughout.of_mem hc hx.1 hx.2
  have hkind := hplain.self
  rw [← hd.kind_eq] at hkind
  simp only [Php.declaringKinds, List.mem_cons, not_or] at hkind
  simp [SyntaxTree.isDeclaration, hkind]

end Concrete

namespace SyntaxTree

variable {t : SyntaxTree}

def Parsed (t : SyntaxTree) : Prop :=
  ∃ origin source, SyntaxTree.parse origin source = .ok t

theorem Parsed.exists_lower (h : t.Parsed) :
    ∃ c origin source, Php.parse source = .ok c ∧ t = c.lower origin source := by
  obtain ⟨origin, source, h⟩ := h
  rw [SyntaxTree.parse] at h
  split at h
  · rename_i c hc
    cases h
    exact ⟨c, origin, source, hc, rfl⟩
  · cases h

theorem Parsed.tiled (h : t.Parsed) : t.Tiled := by
  obtain ⟨c, origin, source, hc, rfl⟩ := h.exists_lower
  exact c.lower_tiled origin (Php.formed_of_parse hc).1

/-- A text that can be read is printed as it is if nothing is edited. -/
theorem Parsed.print?_eq (h : t.Parsed) : t.print? t = some t.source :=
  Printer.printTo_root_of_unedited (p := .between t t) h.tiled rfl (Nat.lt_succ_self _)

theorem Parsed.exists_laid (h : t.Parsed) (hi : i < t.size) : ∃ c parent field leading span,
    Concrete.Laid t parent field leading span i c ∧ Concrete.Tidy t.source span c ∧
      c.Throughout (Concrete.Formed t.source) := by
  obtain ⟨c, origin, source, hc, rfl⟩ := h.exists_lower
  rw [Concrete.size_lower] at hi
  apply (Concrete.laid_lower origin source c).exists_at
    (P := fun s c => Concrete.Tidy source s c ∧ c.Throughout (Concrete.Formed source))
    (fun h hd => ⟨h.1.of_mem hd, h.2.of_mem hd⟩) (Php.formed_of_parse hc) (Nat.zero_le i)
  omega

/-- In a tree that is read from a text, classes and namespaces have the form of the grammar. -/
theorem Parsed.phpShaped (h : t.Parsed) : t.PhpShaped := by
  have ha := h.tiled.ascending
  have hlt : ∀ i ∈ t.preorder, i < t.size := fun i => h.tiled.mem_preorder.mp
  refine ⟨fun i hi hkind => ?_, fun i hi hkind => ?_, fun i hi hd n hn x hx => ?_⟩
  all_goals obtain ⟨c, _, _, _, _, hlaid, htidy, hformed⟩ := h.exists_laid (hlt i hi)
  · rw [hlaid.kind_eq] at hkind
    have hclass := hformed.self.isClass (isExtracted_iff.mpr (.inl hkind))
    obtain ⟨front, name, back, hfirst, _⟩ := hclass.isFirst_name
    obtain ⟨n, _, hn, _⟩ := hlaid.childByField_eq htidy hfirst (by decide)
    rw [hn]
    rfl
  · rw [hlaid.kind_eq] at hkind
    have hclass := hformed.self.isClass (isExtracted_iff.mpr (.inl hkind))
    obtain ⟨front, body, hfirst, hbraced⟩ := hclass.isFirst_body fun d => htidy.of_mem
    obtain ⟨b, _, hb, hbody⟩ := hlaid.childByField_eq htidy hfirst (by decide)
    rw [hb]
    exact hbody.isClassBody hbraced
  · rw [isDeclaration, Bool.or_eq_true, beq_iff_eq, beq_iff_eq, hlaid.kind_eq] at hd
    rcases hformed.self.isFirst_name htidy hd.symm with hnone | ⟨front, name, back, hfirst, hplain⟩
    · rw [hlaid.childByField_eq_none hnone] at hn
      cases hn
    · obtain ⟨m, _, hm, hname⟩ := hlaid.childByField_eq htidy hfirst (by decide)
      obtain rfl := Option.some.inj (hm.symm.trans hn)
      exact hname.isDeclaration_eq_false ha hplain hx

theorem Parsed.isNameChar_of_mem_text (h : t.Parsed) (hk : isExtracted (t.kind i) = true)
    (hy : t.childByField i "name" = some y) (hx : x ∈ (t.text y).toList) :
    Php.Lexeme.isNameChar x = true := by
  have hi := lt_size_of_mem_children (mem_children_of_childByField hy)
  obtain ⟨c, _, _, _, _, hlaid, htidy, hformed⟩ := h.exists_laid hi
  rw [hlaid.kind_eq] at hk
  obtain ⟨front, name, back, hfirst, hname⟩ := (hformed.self.isClass hk).isFirst_name
  obtain ⟨n, _, hn, hleaf⟩ := hlaid.childByField_eq htidy hfirst (by decide)
  obtain rfl := Option.some.inj (hn.symm.trans hy)
  apply hname.word
  rw [text, textTo, hleaf.node_eq] at hx
  cases name
  exact hx

/-- The name of a class or trait that is read from a text has name characters only. -/
theorem Parsed.isNameChar_of_mem_declarations (h : t.Parsed) (hd : d ∈ t.declarations)
    (hx : x ∈ d.name.toList) : Php.Lexeme.isNameChar x = true := by
  rw [declarations_eq_filterMap] at hd
  obtain ⟨⟨i, n⟩, _, hdeclaration⟩ := List.mem_filterMap.mp hd
  obtain ⟨hname, hkind⟩ := declaration?_eq_some hdeclaration
  obtain ⟨y, hy, _⟩ := Option.bind_eq_some_iff.mp hname
  have hk : isExtracted (t.kind i) = true := by
    rw [isExtracted, hkind]
    rfl
  have htrim : Text.trim (t.text y) = d.name := by
    rw [declaredName_of_child hy] at hname
    split at hname
    · cases hname
    · exact Option.some.inj hname
  apply h.isNameChar_of_mem_text hk hy
  rw [← htrim, Text.trim, String.toList_ofList] at hx
  exact (Text.strip_isInfix Text.isBlank _).subset hx

end SyntaxTree

theorem Disk.parsed_of_parse {d : Disk} (h : d.parse p = .ok t) : t.Parsed := by
  rw [Disk.parse] at h
  split at h
  · cases h
  · split at h
    · rename_i hsource
      cases h
      exact ⟨_, _, hsource⟩
    · cases h

theorem Template.parsed_of_load {template : Template} (h : Template.load d p = .ok template) :
    template.tree.Parsed := by
  rw [Template.load] at h
  split at h
  · cases h
  · cases h
  · rename_i hparse
    split at h
    · cases h
      exact Disk.parsed_of_parse hparse
    · cases h

end Scaffold
