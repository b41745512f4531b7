import Scaffold.Php.Parse
import Scaffold.Proofs.Php.Forests

namespace Scaffold.Php
set_option autoImplicit true

namespace Grammar

open Pattern

variable {source : String} {cs : List Concrete}

/-- Whether a rule reads no tree in one of some roles, apart from what stands below others. -/
def isRoleless (labels : List String) (r : Rule) : Bool :=
  (rules r).avoids labels fun _ => false

theorem label_ne {p : Pattern Rule} (h : Yields source rules p cs)
    (hp : p.avoids labels (isRoleless labels) = true) : ∀ c ∈ cs, ∀ l ∈ labels,
      c.label ≠ some l := by
  apply h.label_ne _ hp
  intro r hr cs hcs
  exact hcs.label_ne nofun hr

theorem roles_ne {p : Pattern Rule} (h : Yields source rules p cs)
    (hp : p.avoids ["name", "body"] (isRoleless ["name", "body"]) = true) :
    ∀ c ∈ cs, c.label ≠ some "name" ∧ c.label ≠ some "body" := by
  intro c hc
  have hne := label_ne h hp c hc
  exact ⟨hne "name" (by decide), hne "body" (by decide)⟩

theorem name_ne {p : Pattern Rule} (h : Yields source rules p cs)
    (hp : p.avoids ["name"] (isRoleless ["name"]) = true) : ∀ c ∈ cs, c.label ≠ some "name" :=
  fun c hc => label_ne h hp c hc "name" List.mem_cons_self

theorem readsName_anyName : anyName.ReadsName :=
  ⟨rfl, fun _ ht => beq_iff_eq.mp ht⟩

theorem readsName_plainName : plainName.ReadsName := by
  refine ⟨rfl, fun t ht => ?_⟩
  rw [Bool.and_eq_true] at ht
  exact beq_iff_eq.mp ht.1

theorem kind_ne_of_node {p : Pattern Rule} (h : Yields source rules (.node kind p) cs)
    (hkind : kind ≠ "\x7d") : ∀ c ∈ cs, c.kind ≠ "\x7d" := by
  have hextra : ∀ c : Concrete, c.isExtra = true → c.kind ≠ "\x7d" := by
    intro c hc hbrace
    rw [Concrete.isExtra, hbrace] at hc
    cases hc
  cases h with
  | look h => cases h
  | remarks h hcs =>
    intro c hc
    rw [List.dropWhile_eq_nil_iff] at hcs
    exact hextra c (hcs c hc)
  | node h hcs =>
    refine List.forall_mem_append.mpr ⟨fun c hc => hextra c ?_, ?_⟩
    · exact List.all_eq_true.mp List.all_takeWhile c hc
    · exact List.forall_mem_singleton.mpr hkind

theorem kind_ne_of_member (h : Yields source rules (.rule .member) cs) :
    ∀ c ∈ cs, c.kind ≠ "\x7d" := by
  rcases h.of_rule.of_alts with h | h
  · exact kind_ne_of_node h (by decide)
  · rcases h.of_alts with h | h
    · exact kind_ne_of_node h (by decide)
    · rcases h.of_alts with h | h
      · exact kind_ne_of_node h (by decide)
      · exact kind_ne_of_node h (by decide)

theorem kind_ne_of_members {p : Pattern Rule} (h : Yields source rules p cs)
    (hp : p = .many (.rule .member)) : ∀ c ∈ cs, c.kind ≠ "\x7d" := by
  induction h with
  | look h =>
    subst hp
    cases h
  | done => nofun
  | more h h' ih ih' =>
    cases hp
    exact List.forall_mem_append.mpr ⟨kind_ne_of_member h, ih' rfl⟩
  | _ => cases hp

theorem kind_ne_of_isRemark {c : Concrete} (h : c.IsRemark) : c.kind ≠ "\x7d" := by
  intro hkind
  have hextra := h.isExtra_eq
  rw [Concrete.isExtra, hkind] at hextra
  cases hextra

theorem of_opening (h : Yields source rules (sym "\x7b") cs) :
    ∃ (lead : List Concrete) (opening : Concrete), cs = lead ++ [opening] ∧
      (∀ c ∈ lead, c.IsRemark) ∧
      opening.kind = "\x7b" ∧ opening.named = false ∧ opening.span.start < opening.span.stop := by
  cases h with
  | look h => cases h
  | @token _ _ _ t lead hlead ht hextra htest =>
    rw [Bool.and_eq_true, beq_iff_eq, List.contains_iff_mem, List.mem_singleton] at htest
    exact ⟨lead, _, rfl, hlead, (Token.kind_of_symbol htest.1).trans htest.2, rfl,
      ht.span_lt (by rw [htest.2]; decide)⟩

theorem of_declarationList (h : Yields source rules declarationList cs) :
    ∃ lead body, cs = lead ++ [body] ∧ (∀ c ∈ lead, c.IsRemark) ∧ body.IsBraced := by
  obtain ⟨lead, first, more, span, rfl, hlead, ds, hds, hdrop⟩ := h.of_field_node rfl
  obtain ⟨_, rest, rfl, hopening, hrest⟩ := hds.of_seqs
  obtain ⟨members, _, rfl, hmembers, hclosing⟩ := hrest.of_seqs
  obtain ⟨openers, opening, rfl, hopeners, hbrace⟩ := of_opening hopening
  obtain ⟨closers, t, rfl, hclosers, hshape, htext⟩ := hclosing.of_closer
  have hsolid : opening.isExtra = false := by
    rw [Concrete.isExtra, hbrace.1]
    rfl
  rw [List.append_assoc, List.singleton_append, (takeWhile_of_isExtra hopeners hsolid).2] at hdrop
  obtain ⟨rfl, rfl⟩ := List.cons.inj hdrop
  refine ⟨lead, _, rfl, hlead, rfl, rfl, opening, members ++ closers, t.leaf, ?_, hbrace,
    (Token.kind_of_symbol hshape).trans htext, ?_⟩
  · rw [List.append_assoc]
    rfl
  · exact List.forall_mem_append.mpr ⟨kind_ne_of_members hmembers.of_within rfl,
      fun c hc => kind_ne_of_isRemark (hclosers c hc)⟩

/-- A class or trait: its modifiers, its name, what it extends and implements, and its body. -/
theorem isClass_of_parts (front base : List Concrete) {name : Pattern Rule} (hname : name.ReadsName)
    (hfront : ∀ c ∈ front, c.label ≠ some "name" ∧ c.label ≠ some "body")
    (hns : Yields source rules (.field "name" name) ns)
    (hbase : ∀ c ∈ base, c.label ≠ some "name" ∧ c.label ≠ some "body")
    (hbody : Yields source rules declarationList bs) :
    Concrete.IsClass source (front ++ (ns ++ (base ++ bs))) := by
  have hremark : ∀ c : Concrete, c.IsRemark → c.label ≠ some "name" ∧ c.label ≠ some "body" := by
    intro c hc
    rw [hc.label_eq]
    decide
  obtain ⟨lead, n, rfl, hlead, hleaf⟩ := hns.of_name hname
  obtain ⟨between, body, rfl, hbetween, hbraced⟩ := of_declarationList hbody
  refine ⟨front ++ lead, n, base ++ between, body, by simp, ?_, hleaf, hbraced⟩
  simp only [List.forall_mem_append]
  exact ⟨⟨hfront, fun c hc => hremark c (hlead c hc)⟩, hbase,
    fun c hc => hremark c (hbetween c hc)⟩

theorem checked_classDeclaration : classDeclaration.Checked source rules := by
  have hkind : "class_declaration" ≠ "namespace_definition" := by decide
  refine ⟨?_, fun cs first more span h hcs => ⟨fun _ => ?_, fun h => absurd h hkind⟩⟩
  · exact checked_of_isPlain rfl
  · rw [Concrete.children, ← hcs]
    apply Concrete.IsClass.dropWhile
    obtain ⟨as, _, rfl, has, h⟩ := h.of_seqs
    obtain ⟨ms, _, rfl, hms, h⟩ := h.of_seqs
    obtain ⟨ks, _, rfl, hks, h⟩ := h.of_seqs
    obtain ⟨ns, _, rfl, hns, h⟩ := h.of_seqs
    obtain ⟨es, _, rfl, hes, h⟩ := h.of_seqs
    obtain ⟨is, bs, rfl, his, hbs⟩ := h.of_seqs
    have hclass := isClass_of_parts (as ++ (ms ++ ks)) (es ++ is)
      readsName_plainName ?_ hns ?_ hbs
    · simpa only [List.append_assoc] using hclass
    · simp only [List.forall_mem_append]
      exact ⟨roles_ne has rfl, roles_ne hms rfl, roles_ne hks rfl⟩
    · simp only [List.forall_mem_append]
      exact ⟨roles_ne hes rfl, roles_ne his rfl⟩

theorem checked_traitDeclaration : traitDeclaration.Checked source rules := by
  have hkind : "trait_declaration" ≠ "namespace_definition" := by decide
  refine ⟨?_, fun cs first more span h hcs => ⟨fun _ => ?_, fun h => absurd h hkind⟩⟩
  · exact checked_of_isPlain rfl
  · rw [Concrete.children, ← hcs]
    apply Concrete.IsClass.dropWhile
    obtain ⟨as, _, rfl, has, h⟩ := h.of_seqs
    obtain ⟨ks, _, rfl, hks, h⟩ := h.of_seqs
    obtain ⟨ns, bs, rfl, hns, hbs⟩ := h.of_seqs
    have hclass := isClass_of_parts (as ++ ks) []
      readsName_plainName ?_ hns nofun hbs
    · simpa only [List.append_assoc, List.nil_append] using hclass
    · exact List.forall_mem_append.mpr ⟨roles_ne has rfl, roles_ne hks rfl⟩

/-- A namespace's name is made of leaves, the first of which is a word. -/
theorem isNamespace_of_name (hks : ∀ c ∈ ks, c.label ≠ some "name")
    (hns : Yields source rules
      (.field "name" (.node "namespace_name" (seqs [anyName, moreNames]))) ns) :
    Concrete.IsNamespace (ks ++ (ns ++ bs)) := by
  obtain ⟨lead, first, more, span, rfl, hlead, ds, hds, hdrop⟩ := hns.of_field_node rfl
  have hflat := hds.of_isFlat rfl
  obtain ⟨words, rest, rfl, hwords, _⟩ := hds.of_seqs
  obtain ⟨remarks, t, named, rfl, hremarks, ht, hshape, _⟩ :=
    hwords.of_readsName readsName_anyName
  have hsolid : (Concrete.node t.kind named none t.span []).isExtra = false := by
    rw [Concrete.isExtra, Concrete.kind, Token.kind, hshape]
    rfl
  rw [List.append_assoc, List.singleton_append,
    (takeWhile_of_isExtra hremarks hsolid).2] at hdrop
  obtain ⟨rfl, rfl⟩ := List.cons.inj hdrop
  have hkind : "namespace_name" ∉ declaringKinds := by decide
  have hword : t.span.start < t.span.stop := ht.span_lt (ht.name hshape).1
  refine .inr ⟨ks ++ lead, .node "namespace_name" true (some "name") span
    (.node t.kind named none t.span [] :: rest), bs, by simp, ?_, rfl, rfl, .node hkind ?_,
    _, _, rfl, hword⟩
  · refine List.forall_mem_append.mpr ⟨hks, fun c hc => ?_⟩
    rw [(hlead c hc).label_eq]
    exact (Option.some_ne_none "name").symm
  · intro c hc
    rw [List.append_assoc, List.singleton_append] at hflat
    have hleaf := hflat c (List.mem_append_right remarks hc)
    exact Concrete.throughout_of_leaf hleaf.1 hleaf.2

theorem checked_namespaceDefinition : namespaceDefinition.Checked source rules := by
  refine ⟨?_, fun cs first more span h hcs => ⟨nofun, fun _ => ?_⟩⟩
  · exact checked_of_isPlain rfl
  · rw [Concrete.children, ← hcs]
    apply Concrete.IsNamespace.dropWhile
    obtain ⟨ks, back, rfl, hks, hback⟩ := h.of_seqs
    rcases hback.of_alts with hnamed | hbare
    · obtain ⟨ns, bs, rfl, hns, _⟩ := hnamed.of_seqs
      exact isNamespace_of_name (name_ne hks rfl) hns
    · exact .inl (List.forall_mem_append.mpr ⟨name_ne hks rfl, name_ne hbare rfl⟩)

theorem checked_alts {ps : List (Pattern Rule)}
    (h : ∀ p ∈ ps.filter (!·.isPlain), p.Checked source rules) :
    (alts ps).Checked source rules := by
  have hall : ∀ p ∈ ps, p.Checked source rules := by
    intro p hp
    cases hplain : p.isPlain with
    | true => exact checked_of_isPlain hplain
    | false => exact h p (List.mem_filter.mpr ⟨hp, by rw [hplain]; rfl⟩)
  clear h
  induction ps with
  | nil => trivial
  | cons p ps ih =>
    obtain ⟨hfirst, hrest⟩ := List.forall_mem_cons.mp hall
    cases ps with
    | nil => exact hfirst
    | cons q qs => exact ⟨hfirst, ih hrest⟩

/-- Whatever the grammar reads, it reads declarations in their form. -/
theorem checked_rules (r : Rule) : (rules r).Checked source rules := by
  cases r with
  | statement =>
    apply checked_alts
    change ∀ p ∈ [namespaceDefinition, classDeclaration, traitDeclaration],
      p.Checked source rules
    simp only [List.forall_mem_cons]
    exact ⟨checked_namespaceDefinition, checked_classDeclaration, checked_traitDeclaration, nofun⟩
  | _ => exact checked_of_isPlain (by decide)

end Grammar

variable {source : String} {r r' : Reading}

theorem yields_of_readStatements (hr : Follow source r.stop r.tokens)
    (h : readStatements text depth fuel r = .ok r') :
    ∃ cs, Grows source cs r r' ∧ ∀ c ∈ cs, c.Throughout (Concrete.Formed source) := by
  induction fuel generalizing r with
  | zero =>
    cases h
    exact ⟨[], .refl hr, nofun⟩
  | succ fuel ih =>
    obtain ⟨lead, hlead, hskip⟩ := Grows.skipExtras hr
    have hremarks : ∀ c ∈ lead, c.Throughout (Concrete.Formed source) :=
      fun c hc => (hlead c hc).throughout
    simp only [readStatements] at h
    split at h
    · cases h
      exact ⟨lead, hskip, hremarks⟩
    · split at h
      · rename_i r₁ hr₁
        obtain ⟨cs, hcs, hstatement⟩ := Pattern.yields_of_read hskip.follow hr₁
        obtain ⟨ds, hrest, hds⟩ := ih hstatement.follow h
        have hchecked := hcs.throughout Grammar.checked_rules trivial
        exact ⟨lead ++ (cs ++ ds), hskip.trans (hstatement.trans hrest),
          List.forall_mem_append.mpr ⟨hremarks, List.forall_mem_append.mpr ⟨hchecked, hds⟩⟩⟩
      · cases h
      · split at h <;> cases h

/-- What is read from a text is a tree of the text, in the form of the grammar. -/
theorem formed_of_parse (h : parse source = .ok c) :
    c.WellFormed source ∧ c.Throughout (Concrete.Formed source) := by
  simp only [parse, bind, Except.bind, pure, Except.pure] at h
  split at h
  · rename_i r₁ hr₁
    split at h
    · cases h
    · rename_i r hr
      cases h
      obtain ⟨cs, hcs, hopening⟩ := Pattern.yields_of_read (follow_tokenize source) hr₁
      obtain ⟨ds, hrest, hds⟩ := yields_of_readStatements hopening.follow hr
      have hchecked := hcs.throughout Grammar.checked_rules (Pattern.checked_of_isPlain rfl)
      have hall := hopening.trans hrest
      have hbuilt : r.built.reverse = cs ++ ds := by simp [hall.built]
      rw [hbuilt]
      have hkind : "program" ∉ declaringKinds := by decide
      exact ⟨⟨Span.fits_whole source, hall.tidy.to_end (Nat.zero_le _)⟩,
        .node (Concrete.formed_of_notMem hkind) (List.forall_mem_append.mpr ⟨hchecked, hds⟩)⟩
  · cases h

end Scaffold.Php
