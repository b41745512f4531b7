import Scaffold.Proofs.Extraction.Selection
import Scaffold.Proofs.Php.Reading

namespace Scaffold
set_option autoImplicit true

namespace Concrete

/-- Holds of a node and of all nodes below it. -/
inductive Throughout (P : Concrete → Prop) : Concrete → Prop where
  | node {kind : String} {named : Bool} {label : Option String} {span : Span}
      {cs : List Concrete} (h : P (.node kind named label span cs))
      (hbelow : ∀ c ∈ cs, Throughout P c) : Throughout P (.node kind named label span cs)

theorem Throughout.self {P : Concrete → Prop} (h : Throughout P c) : P c := by
  cases h
  assumption

theorem Throughout.of_mem {P : Concrete → Prop} (h : Throughout P c) (hd : d ∈ c.children) :
    Throughout P d := by
  cases h with
  | node h hbelow => exact hbelow d hd

theorem throughout_of_leaf {P : Concrete → Prop} (h : c.children = []) (hc : P c) :
    Throughout P c := by
  cases c with
  | node kind named label span cs =>
    obtain rfl : cs = [] := h
    exact .node hc nofun

def IsWord (source : String) (c : Concrete) : Prop :=
  ∀ x ∈ (c.span.cut source).toList, Php.Lexeme.isNameChar x = true

structure IsNameLeaf (source : String) (c : Concrete) : Prop where
  label_eq : c.label = some "name"
  kind_eq : c.kind = "name"
  children_eq : c.children = []
  span_lt : c.span.start < c.span.stop
  word : c.IsWord source

/-- Members in braces, as the body of a class or trait. -/
structure IsBraced (c : Concrete) : Prop where
  label_eq : c.label = some "body"
  kind_eq : c.kind = "declaration_list"
  children : ∃ opening members closing, c.children = opening :: (members ++ [closing]) ∧
    (opening.kind = "\x7b" ∧ opening.named = false ∧ opening.span.start < opening.span.stop) ∧
    closing.kind = "\x7d" ∧ ∀ m ∈ members, m.kind ≠ "\x7d"

def IsClass (source : String) (cs : List Concrete) : Prop :=
  ∃ front name base body, cs = front ++ name :: (base ++ [body]) ∧
    (∀ c ∈ front ++ base, c.label ≠ some "name" ∧ c.label ≠ some "body") ∧
    name.IsNameLeaf source ∧ body.IsBraced

/-- The children of a namespace definition, which may have no name. -/
def IsNamespace (cs : List Concrete) : Prop :=
  (∀ c ∈ cs, c.label ≠ some "name") ∨
    ∃ front name back, cs = front ++ name :: back ∧ (∀ c ∈ front, c.label ≠ some "name") ∧
      name.label = some "name" ∧ name.kind = "namespace_name" ∧
      name.Throughout (·.kind ∉ Php.declaringKinds) ∧
      ∃ first more, name.children = first :: more ∧ first.span.start < first.span.stop

/-- What the grammar says about the children of a node. -/
structure Formed (source : String) (c : Concrete) : Prop where
  isClass : SyntaxTree.isExtracted c.kind = true → IsClass source c.children
  isNamespace : c.kind = "namespace_definition" → IsNamespace c.children

theorem dropWhile_append_cons {front : List Concrete} (h : c.isExtra = false)
    (cs : List Concrete) :
    (front ++ c :: cs).dropWhile isExtra = front.dropWhile isExtra ++ c :: cs := by
  induction front with
  | nil => rw [List.nil_append, List.dropWhile_cons_of_neg (by simp [h])]; rfl
  | cons d front ih =>
    cases hd : d.isExtra with
    | true => simp [hd, ih]
    | false => simp [hd]

theorem IsClass.dropWhile (h : IsClass source cs) : IsClass source (cs.dropWhile isExtra) := by
  obtain ⟨front, name, base, body, rfl, hlabels, hname, hbody⟩ := h
  have hextra : name.isExtra = false := by rw [isExtra, hname.kind_eq]; rfl
  refine ⟨_, name, base, body, dropWhile_append_cons hextra _, ?_, hname, hbody⟩
  intro c hc
  apply hlabels
  rw [List.mem_append] at hc ⊢
  exact hc.imp (List.dropWhile_subset _ ·) id

theorem IsNamespace.dropWhile (h : IsNamespace cs) : IsNamespace (cs.dropWhile isExtra) := by
  rcases h with hnone | ⟨front, name, back, rfl, hlabels, hlabel, hkind, hname⟩
  · exact .inl fun c hc => hnone c (List.dropWhile_subset _ hc)
  · have hextra : name.isExtra = false := by rw [isExtra, hkind]; rfl
    refine .inr ⟨_, name, back, dropWhile_append_cons hextra _, ?_, hlabel, hkind, hname⟩
    exact fun c hc => hlabels c (List.dropWhile_subset _ hc)

theorem formed_of_notMem (h : c.kind ∉ Php.declaringKinds) : Formed source c where
  isClass hkind := by
    apply absurd _ h
    rcases SyntaxTree.isExtracted_iff.mp hkind with hkind | hkind <;> rw [hkind] <;> decide
  isNamespace hkind := by
    apply absurd _ h
    rw [hkind]
    decide

theorem label_withLabel (label : String) (c : Concrete) :
    (c.withLabel label).label = some label := by
  cases c
  rfl

theorem throughout_withLabel (h : Throughout (Formed source) c) (label : String) :
    Throughout (Formed source) (c.withLabel label) := by
  cases h with
  | node h hbelow => exact .node ⟨h.isClass, h.isNamespace⟩ hbelow

theorem IsRemark.notMem (h : IsRemark c) : c.kind ∉ Php.declaringKinds := by
  have hextra := h.isExtra_eq
  rw [isExtra, Bool.or_eq_true, beq_iff_eq, beq_iff_eq] at hextra
  rcases hextra with hkind | hkind <;> rw [hkind] <;> decide

theorem IsRemark.throughout (h : IsRemark c) : Throughout (Formed source) c :=
  throughout_of_leaf h.children_eq (formed_of_notMem h.notMem)

end Concrete

namespace Php

open Concrete (Formed formed_of_notMem throughout_of_leaf throughout_withLabel)

variable {ρ : Type} {source : String} {rules : ρ → Pattern ρ} {p q : Pattern ρ}
  {cs : List Concrete}

theorem Token.kind_of_symbol {t : Token} (h : t.shape = .symbol) : t.kind = t.text := by
  rw [kind, h]

theorem Token.Spelled.span_lt {t : Token} (h : t.Spelled source) (ht : t.text ≠ "") :
    t.span.start < t.span.stop := by
  obtain ⟨_, _, _, _, hstop⟩ :=
    (Span.cut?_eq_some_iff (a := t.span.start) (b := t.span.stop)).mp h.cut_eq
  have hsize : 0 < t.text.utf8ByteSize := by
    rw [Nat.pos_iff_ne_zero]
    exact fun h => ht (String.utf8ByteSize_eq_zero_iff.mp h)
  omega

namespace Yields

theorem of_seqs {p q : Pattern ρ} {ps : List (Pattern ρ)}
    (h : Yields source rules (Pattern.seqs (p :: q :: ps)) cs) :
    ∃ as bs, cs = as ++ bs ∧ Yields source rules p as ∧
      Yields source rules (Pattern.seqs (q :: ps)) bs := by
  cases h with
  | look h => cases h
  | seq h h' => exact ⟨_, _, rfl, h, h'⟩

theorem of_alts {p q : Pattern ρ} {ps : List (Pattern ρ)}
    (h : Yields source rules (Pattern.alts (p :: q :: ps)) cs) :
    Yields source rules p cs ∨ Yields source rules (Pattern.alts (q :: ps)) cs := by
  cases h with
  | look h => cases h
  | first h => exact .inl h
  | second h => exact .inr h

theorem of_rule {r : ρ} (h : Yields source rules (.rule r) cs) :
    Yields source rules (rules r) cs := by
  cases h with
  | look h => cases h
  | rule h => exact h

theorem of_closer (h : Yields source rules (.closer text) cs) :
    ∃ (lead : List Concrete) (t : Token), cs = lead ++ [t.leaf] ∧ (∀ c ∈ lead, c.IsRemark) ∧
      t.shape = .symbol ∧ t.text = text := by
  cases h with
  | look h => cases h
  | closer hlead ht hshape => exact ⟨_, _, rfl, hlead, hshape, rfl⟩

theorem of_within {nested : Bool} (h : Yields source rules (.within nested p) cs) :
    Yields source rules p cs := by
  cases h with
  | look h => cases h
  | within h => exact h

/-- The last tree that a pattern reads is the one that gets the role. -/
theorem of_field {Q : List Concrete → Concrete → Prop}
    (h : Yields source rules (.field label p) cs)
    (hp : ∀ ds, Yields source rules p ds → ∃ lead d, ds = lead ++ [d] ∧ Q lead d) :
    ∃ lead d, cs = lead ++ [d.withLabel label] ∧ Q lead d := by
  cases h with
  | look h => cases h
  | unlabelled h =>
    obtain ⟨lead, d, heq, _⟩ := hp [] h
    cases lead <;> cases heq
  | field h =>
    obtain ⟨lead, d, heq, hd⟩ := hp _ h
    obtain ⟨rfl, hlast⟩ := List.append_inj' heq rfl
    obtain rfl := List.singleton_inj.mp hlast
    exact ⟨_, _, rfl, hd⟩

end Yields

namespace Pattern

/-- Whether a pattern starts with a token of which no remark comes. -/
def isHeaded : Pattern ρ → Bool
  | .token kind _ _ => kind.all (!remarkKinds.contains ·)
  | .seq p _ => p.isHeaded
  | .alt p q => p.isHeaded && q.isHeaded
  | _ => false

/-- Whether no tree that the pattern reads, apart from what stands below others, has one of some
roles. -/
def avoids (labels : List String) (onRule : ρ → Bool) : Pattern ρ → Bool
  | .rule r => onRule r
  | .field label p => !labels.contains label && p.avoids labels onRule
  | .seq p q | .alt p q => p.avoids labels onRule && q.avoids labels onRule
  | .many p | .within _ p => p.avoids labels onRule
  | .node _ p => p.isHeaded
  | _ => true

def isFlat : Pattern ρ → Bool
  | .token kind _ _ => kind.all (!declaringKinds.contains ·)
  | .seq p q | .alt p q => p.isFlat && q.isFlat
  | .many p => p.isFlat
  | .empty | .goesOn | .glued | .absent _ => true
  | _ => false

/-- Whether a pattern reads no declaration but by its rules. -/
def isPlain : Pattern ρ → Bool
  | .token kind _ _ => kind.all (!declaringKinds.contains ·)
  | .unquote delimiter => !declaringKinds.contains delimiter
  | .seq p q | .alt p q => p.isPlain && q.isPlain
  | .many p | .within _ p | .field _ p => p.isPlain
  | .node kind p => !declaringKinds.contains kind && p.isPlain
  | _ => true

/-- Reads declarations in the form of the grammar. -/
def Checked (source : String) (rules : ρ → Pattern ρ) : Pattern ρ → Prop
  | .token kind _ _ => ∀ k ∈ kind, k ∉ declaringKinds
  | .unquote delimiter => delimiter ∉ declaringKinds
  | .seq p q | .alt p q => p.Checked source rules ∧ q.Checked source rules
  | .many p | .within _ p | .field _ p => p.Checked source rules
  | .node kind p => p.Checked source rules ∧ ∀ cs first more span, Yields source rules p cs →
      cs.dropWhile Concrete.isExtra = first :: more →
      Formed source (.node kind true none span (first :: more))
  | _ => True

theorem checked_of_isPlain (h : p.isPlain = true) : p.Checked source rules := by
  induction p with
  | token kind named test =>
    cases kind with
    | none => nofun
    | some kind =>
      rintro _ ⟨⟩
      simpa [isPlain] using h
  | unquote delimiter => simpa [isPlain, Checked] using h
  | seq p q ihp ihq | alt p q ihp ihq =>
    rw [isPlain, Bool.and_eq_true] at h
    exact ⟨ihp h.1, ihq h.2⟩
  | many p ih | within nested p ih | field label p ih => exact ih h
  | node kind p ih =>
    rw [isPlain, Bool.and_eq_true] at h
    refine ⟨ih h.2, fun cs first more span _ _ => formed_of_notMem ?_⟩
    simpa [Concrete.kind] using h.1
  | _ => trivial

end Pattern

open Pattern

/-- Of a checked pattern come trees in the form of the grammar only. -/
theorem Yields.throughout (hrules : ∀ r, (rules r).Checked source rules)
    (h : Yields source rules p cs) (hp : p.Checked source rules) :
    ∀ c ∈ cs, c.Throughout (Formed source) := by
  have hextend : ∀ (lead : List Concrete) {leaf : Concrete}, (∀ c ∈ lead, c.IsRemark) →
      leaf.children = [] → leaf.kind ∉ declaringKinds →
      ∀ c ∈ lead ++ [leaf], c.Throughout (Formed source) := by
    intro lead leaf hlead hleaf hkind c hc
    rcases List.mem_append.mp hc with hc | hc
    · exact (hlead c hc).throughout
    · obtain rfl := List.mem_singleton.mp hc
      exact throughout_of_leaf hleaf (formed_of_notMem hkind)
  induction h with
  | look => nofun
  | @token kind named test t lead hlead ht hextra htest =>
    apply hextend lead hlead rfl
    cases kind with
    | none => exact ht.kind
    | some kind => exact hp kind rfl
  | closer hlead ht hshape => exact hextend _ hlead rfl ht.kind
  | unquote ht => exact hextend [] nofun rfl hp
  | islandEnd hlead => exact fun c hc => (hlead c hc).throughout
  | terminator hlead ht hshape => exact hextend _ hlead rfl ht.kind
  | rule h ih => exact ih (hrules _)
  | seq h h' ih ih' => exact List.forall_mem_append.mpr ⟨ih hp.1, ih' hp.2⟩
  | first h ih => exact ih hp.1
  | second h ih => exact ih hp.2
  | done => nofun
  | more h h' ih ih' => exact List.forall_mem_append.mpr ⟨ih hp, ih' hp⟩
  | within h ih => exact ih hp
  | remarks h hcs ih => exact ih hp.1
  | @node kind p cs more first h hcs ih =>
    have hall := ih hp.1
    refine List.forall_mem_append.mpr ⟨fun c hc => hall c (List.takeWhile_subset _ hc), ?_⟩
    rw [List.forall_mem_singleton]
    refine .node (hp.2 cs first more _ h hcs) fun c hc => hall c ?_
    exact List.dropWhile_subset _ (hcs ▸ hc)
  | unlabelled => nofun
  | @field label p cs c h ih =>
    obtain ⟨hfront, hlast⟩ := List.forall_mem_append.mp (ih hp)
    refine List.forall_mem_append.mpr ⟨hfront, ?_⟩
    rw [List.forall_mem_singleton] at hlast ⊢
    exact throughout_withLabel hlast label

/-- A headed pattern reads remarks and then a tree that is none. -/
theorem Yields.of_isHeaded (h : Yields source rules p cs) (hp : p.isHeaded = true) :
    ∃ lead first more, cs = lead ++ first :: more ∧ (∀ c ∈ lead, c.IsRemark) ∧
      first.isExtra = false := by
  induction h with
  | @token kind named test t lead hlead ht hextra htest =>
    refine ⟨lead, _, [], rfl, hlead, ?_⟩
    have hsolid : kind.getD t.kind ∉ remarkKinds := by
      cases kind with
      | none => exact ht.solid hextra
      | some kind => simpa [isHeaded] using hp
    simpa [Concrete.isExtra, Concrete.kind, remarkKinds] using hsolid
  | @seq p q cs ds h h' ih ih' =>
    obtain ⟨lead, first, more, rfl, hlead, hfirst⟩ := ih hp
    exact ⟨lead, first, more ++ ds, by simp, hlead, hfirst⟩
  | first h ih =>
    rw [isHeaded, Bool.and_eq_true] at hp
    exact ih hp.1
  | second h ih =>
    rw [isHeaded, Bool.and_eq_true] at hp
    exact ih hp.2
  | @look p h => cases p <;> first | cases hp | cases h
  | _ => cases hp

theorem takeWhile_of_isExtra {lead more : List Concrete} {first : Concrete}
    (hlead : ∀ c ∈ lead, c.IsRemark) (hfirst : first.isExtra = false) :
    (lead ++ first :: more).takeWhile Concrete.isExtra = lead ∧
      (lead ++ first :: more).dropWhile Concrete.isExtra = first :: more := by
  have hall : ∀ c ∈ lead, c.isExtra = true := fun c hc => (hlead c hc).isExtra_eq
  rw [List.takeWhile_append_of_pos hall, List.dropWhile_append_of_pos hall,
    List.takeWhile_cons_of_neg (by simp [hfirst]), List.dropWhile_cons_of_neg (by simp [hfirst])]
  exact ⟨List.append_nil lead, rfl⟩

/-- A node over a headed pattern stands behind the remarks before it and starts with the head. -/
theorem Yields.of_node {kind : String} (h : Yields source rules (.node kind p) cs)
    (hp : p.isHeaded = true) :
    ∃ lead first more span, cs = lead ++ [.node kind true none span (first :: more)] ∧
      (∀ c ∈ lead, c.IsRemark) ∧ ∃ ds, Yields source rules p ds ∧
        ds.dropWhile Concrete.isExtra = first :: more := by
  cases h with
  | look h => cases h
  | remarks h hcs =>
    obtain ⟨lead, first, more, rfl, hlead, hfirst⟩ := h.of_isHeaded hp
    rw [(takeWhile_of_isExtra hlead hfirst).2] at hcs
    cases hcs
  | @node _ _ ds more first h hcs =>
    obtain ⟨lead, first', more', rfl, hlead, hfirst⟩ := h.of_isHeaded hp
    refine ⟨lead, first, more, _, by rw [(takeWhile_of_isExtra hlead hfirst).1], hlead, _, h, hcs⟩

theorem Yields.of_field_node {kind : String}
    (h : Yields source rules (.field label (.node kind p)) cs) (hp : p.isHeaded = true) :
    ∃ lead first more span, cs = lead ++ [.node kind true (some label) span (first :: more)] ∧
      (∀ c ∈ lead, c.IsRemark) ∧ ∃ ds, Yields source rules p ds ∧
        ds.dropWhile Concrete.isExtra = first :: more := by
  have hnode : ∀ ds, Yields source rules (.node kind p) ds → ∃ lead d, ds = lead ++ [d] ∧
      ∃ first more span, d = .node kind true none span (first :: more) ∧
        (∀ c ∈ lead, c.IsRemark) ∧ ∃ ds, Yields source rules p ds ∧
          ds.dropWhile Concrete.isExtra = first :: more := by
    intro ds hds
    obtain ⟨lead, first, more, span, rfl, hlead⟩ := hds.of_node hp
    exact ⟨lead, _, rfl, first, more, span, rfl, hlead⟩
  obtain ⟨lead, _, rfl, first, more, span, rfl, hlead, hds⟩ := h.of_field hnode
  exact ⟨lead, first, more, span, rfl, hlead, hds⟩

theorem Yields.label_ne (hrule : ∀ r, onRule r = true → ∀ cs, Yields source rules (rules r) cs →
      ∀ c ∈ cs, ∀ l ∈ labels, c.label ≠ some l)
    (h : Yields source rules p cs) (hp : p.avoids labels onRule = true) :
    ∀ c ∈ cs, ∀ l ∈ labels, c.label ≠ some l := by
  have hbehind : ∀ (lead : List Concrete) {last : Concrete}, (∀ c ∈ lead, c.IsRemark) →
      last.label = none → ∀ c ∈ lead ++ [last], ∀ l ∈ labels, c.label ≠ some l := by
    intro lead last hlead hlast c hc l _
    have hnone : c.label = none := by
      rcases List.mem_append.mp hc with hc | hc
      · exact (hlead c hc).label_eq
      · rwa [List.mem_singleton.mp hc]
    rw [hnone]
    nofun
  have hnode : ∀ (kind : String) {p : Pattern ρ} {cs : List Concrete},
      Yields source rules (.node kind p) cs → p.isHeaded = true →
      ∀ c ∈ cs, ∀ l ∈ labels, c.label ≠ some l := by
    intro kind p cs h hp
    obtain ⟨lead, first, more, span, rfl, hlead, _⟩ := h.of_node hp
    exact hbehind _ hlead rfl
  induction h with
  | look | done | unlabelled => nofun
  | token hlead ht hextra htest => exact hbehind _ hlead rfl
  | closer hlead ht hshape => exact hbehind _ hlead rfl
  | unquote ht => exact hbehind [] nofun rfl
  | islandEnd hlead =>
    intro c hc l _
    rw [(hlead c hc).label_eq]
    nofun
  | terminator hlead ht hshape => exact hbehind _ hlead rfl
  | rule h ih => exact hrule _ hp _ h
  | seq h h' ih ih' =>
    rw [avoids, Bool.and_eq_true] at hp
    exact List.forall_mem_append.mpr ⟨ih hp.1, ih' hp.2⟩
  | first h ih =>
    rw [avoids, Bool.and_eq_true] at hp
    exact ih hp.1
  | second h ih =>
    rw [avoids, Bool.and_eq_true] at hp
    exact ih hp.2
  | more h h' ih ih' => exact List.forall_mem_append.mpr ⟨ih hp, ih' hp⟩
  | within h ih => exact ih hp
  | @remarks kind p cs h hcs ih => exact hnode kind (.remarks h hcs) hp
  | @node kind p cs more first h hcs ih => exact hnode kind (.node h hcs) hp
  | @field label p cs c h ih =>
    rw [avoids, Bool.and_eq_true, Bool.not_eq_true'] at hp
    obtain ⟨hfront, _⟩ := List.forall_mem_append.mp (ih hp.2)
    refine List.forall_mem_append.mpr ⟨hfront, ?_⟩
    rw [List.forall_mem_singleton, Concrete.label_withLabel]
    rintro l hl ⟨⟩
    cases (List.contains_iff_mem.mpr hl).symm.trans hp.1

theorem Yields.of_isFlat (h : Yields source rules p cs) (hp : p.isFlat = true) :
    ∀ c ∈ cs, c.children = [] ∧ c.kind ∉ declaringKinds := by
  induction h with
  | look | done => nofun
  | @token kind named test t lead hlead ht hextra htest =>
    intro c hc
    rcases List.mem_append.mp hc with hc | hc
    · exact ⟨(hlead c hc).children_eq, (hlead c hc).notMem⟩
    · obtain rfl := List.mem_singleton.mp hc
      refine ⟨rfl, ?_⟩
      cases kind with
      | none => exact ht.kind
      | some kind => simpa [isFlat, Concrete.kind] using hp
  | seq h h' ih ih' =>
    rw [isFlat, Bool.and_eq_true] at hp
    exact List.forall_mem_append.mpr ⟨ih hp.1, ih' hp.2⟩
  | first h ih =>
    rw [isFlat, Bool.and_eq_true] at hp
    exact ih hp.1
  | second h ih =>
    rw [isFlat, Bool.and_eq_true] at hp
    exact ih hp.2
  | more h h' ih ih' => exact List.forall_mem_append.mpr ⟨ih hp, ih' hp⟩
  | _ => cases hp

def Pattern.ReadsName : Pattern ρ → Prop
  | .token kind _ test => kind = none ∧ ∀ t, test t = true → t.shape = .name
  | _ => False

theorem Yields.of_readsName (h : Yields source rules p cs) (hp : p.ReadsName) :
    ∃ (lead : List Concrete) (t : Token) (named : Bool),
      cs = lead ++ [.node t.kind named none t.span []] ∧ (∀ c ∈ lead, c.IsRemark) ∧
      t.Spelled source ∧ t.shape = .name ∧ t.isExtra = false := by
  cases h with
  | look h =>
    cases p with
    | token => cases h
    | _ => cases hp
  | token hlead ht hextra htest =>
    obtain ⟨rfl, hname⟩ := hp
    exact ⟨_, _, _, rfl, hlead, ht, hname _ htest, hextra⟩
  | _ => cases hp

theorem Yields.of_name (h : Yields source rules (.field "name" p) cs) (hp : p.ReadsName) :
    ∃ lead name, cs = lead ++ [name] ∧ (∀ c ∈ lead, c.IsRemark) ∧ name.IsNameLeaf source := by
  have hname : ∀ ds, Yields source rules p ds → ∃ lead d, ds = lead ++ [d] ∧
      (∀ c ∈ lead, c.IsRemark) ∧ (d.withLabel "name").IsNameLeaf source := by
    intro ds hds
    obtain ⟨lead, t, named, rfl, hlead, ht, hshape, _⟩ := hds.of_readsName hp
    obtain ⟨hne, hword⟩ := ht.name hshape
    refine ⟨lead, _, rfl, hlead, rfl, ?_, rfl, ht.span_lt hne, ?_⟩
    · simp [Token.kind, hshape, Concrete.kind, Concrete.withLabel]
    · simpa [Concrete.IsWord, Concrete.span, Concrete.withLabel, Span.cut, ht.cut_eq] using hword
  obtain ⟨lead, name, rfl, hlead, hleaf⟩ := h.of_field hname
  exact ⟨lead, _, rfl, hlead, hleaf⟩

end Php

end Scaffold
