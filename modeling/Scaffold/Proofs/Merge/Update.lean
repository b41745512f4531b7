import Mathlib.Data.List.Forall2
import Scaffold.Proofs.Extraction.Selection
import Scaffold.Proofs.Merge.Stub

namespace Scaffold.SyntaxTree
set_option autoImplicit true

variable {t s s₁ s₃ m : SyntaxTree}

def isDeclaration (t : SyntaxTree) (i : Nat) : Bool :=
  t.kind i == "namespace_definition" || t.kind i == "class_declaration"

theorem isDeclaration_of_namespace (h : t.kind i = "namespace_definition") :
    t.isDeclaration i = true := by
  simp [isDeclaration, h]

theorem isDeclaration_of_class (h : t.kind i = "class_declaration") :
    t.isDeclaration i = true := by
  simp [isDeclaration, h]

/-- Whether a node is a class body: a list of declarations from an opening brace to the only
closing one. -/
def isClassBody (t : SyntaxTree) (i : Nat) : Bool :=
  t.kind i == "declaration_list" &&
    (t.children i).head?.any (fun c => t.kind c == "\x7b" && !(t.node c).named) &&
    (t.children i).getLast?.any (fun c => t.kind c == "\x7d") &&
    (t.children i).countP (fun c => t.kind c == "\x7d") == 1

/-- What the grammar says about classes and namespaces. -/
structure PhpShaped (t : SyntaxTree) : Prop where
  class_name : ∀ i ∈ t.preorder, t.kind i = "class_declaration" →
    (t.childByField i "name").isSome
  class_body : ∀ i ∈ t.preorder, t.kind i = "class_declaration" →
    (t.childByField i "body").any t.isClassBody
  plain_name : ∀ i ∈ t.preorder, t.isDeclaration i → ∀ n ∈ t.childByField i "name",
    ∀ x ∈ t.preorderFrom n, t.isDeclaration x = false

/-- An empty class in a namespace. -/
def emptyClassSource : String := "namespace A; class B \x7b\x7d"

def emptyClass : Concrete :=
  .node "program" true none ⟨0, 23⟩
    [.node "namespace_definition" true none ⟨0, 12⟩
      [.node "namespace" false none ⟨0, 9⟩ [],
        .node "namespace_name" true (some "name") ⟨10, 11⟩ [],
        .node ";" false none ⟨11, 12⟩ []],
      .node "class_declaration" true none ⟨13, 23⟩
        [.node "class" false none ⟨13, 18⟩ [],
          .node "name" true (some "name") ⟨19, 20⟩ [],
          .node "declaration_list" true (some "body") ⟨21, 23⟩
            [.node "\x7b" false none ⟨21, 22⟩ [], .node "\x7d" false none ⟨22, 23⟩ []]]]

example : (emptyClass.lower "B.php" emptyClassSource).PhpShaped :=
  ⟨by decide, by decide, by decide⟩

theorem mem_children_of_childByField (h : t.childByField i f = some c) : c ∈ t.children i :=
  List.mem_of_find?_eq_some h

theorem field_of_childByField (h : t.childByField i f = some c) : (t.node c).field = some f := by
  simpa using List.find?_some h

theorem Preordered.parent_unique (h : Preordered t) (hi : c ∈ t.children i)
    (hj : c ∈ t.children j) : i = j :=
  Option.some.inj ((h.parent_of_mem hi).symm.trans (h.parent_of_mem hj))

/-- Whether a node is the name of a namespace definition among some nodes. -/
def namedBy (t : SyntaxTree) (l : List Nat) (i : Nat) : Bool :=
  l.any fun x => t.kind x == "namespace_definition" && t.childByField x "name" == some i

def isNamespaceName (t : SyntaxTree) (i : Nat) : Bool :=
  t.namedBy t.preorder i

theorem namedBy_iff : t.namedBy l i = true ↔
    ∃ x ∈ l, t.kind x = "namespace_definition" ∧ t.childByField x "name" = some i := by
  simp [namedBy]

/-- A stage of the update of a tree: what the visits still to come look at is unchanged. -/
structure Stage (t s : SyntaxTree) (target : Nat) : Prop where
  size_le : t.size ≤ s.size
  source_eq : s.source = t.source
  kind_eq : ∀ i < t.size, s.kind i = t.kind i
  field_eq : ∀ i < t.size, (s.node i).field = (t.node i).field
  children_eq : ∀ i < t.size, t.kind i = "namespace_definition" ∨ i = target →
    s.children i = t.children i

theorem Stage.refl (t : SyntaxTree) (target : Nat) : Stage t t target :=
  ⟨Nat.le_refl _, rfl, fun _ _ => rfl, fun _ _ => rfl, fun _ _ _ => rfl⟩

theorem Stage.childByField_eq (h : Stage t s target) (ha : t.Ascending) (hi : i < t.size)
    (hd : t.kind i = "namespace_definition" ∨ i = target) (f : String) :
    s.childByField i f = t.childByField i f := by
  rw [childByField, childByField, h.children_eq i hi hd]
  apply List.find?_congr
  intro c hc
  rw [h.field_eq c (ha i c hc).2]

theorem Stage.replaceWithText (h : Stage t s target) (hc : c < t.size)
    (hk : t.kind c ≠ "namespace_definition") (hne : c ≠ target) (text : String) :
    Stage t (s.replaceWithText c text) target := by
  have hlt : c < s.size := Nat.lt_of_lt_of_le hc h.size_le
  refine ⟨by rw [size_replaceWithText]; exact h.size_le, h.source_eq, ?_, ?_, ?_⟩
  · intro i hi
    by_cases he : i = c
    · subst i
      rw [kind, node_replaceWithText_self hlt]
      exact h.kind_eq c hi
    · rw [kind, node_replaceWithText_of_ne he]
      exact h.kind_eq i hi
  · intro i hi
    by_cases he : i = c
    · subst i
      rw [node_replaceWithText_self hlt]
      exact h.field_eq c hi
    · rw [node_replaceWithText_of_ne he]
      exact h.field_eq i hi
  · intro i hi hd
    have he : i ≠ c := by
      rintro rfl
      exact hd.elim hk hne
    rw [children, node_replaceWithText_of_ne he]
    exact h.children_eq i hi hd

structure ClassAt (t : SyntaxTree) (target name body : Nat) (front : List Nat) (close : Nat) :
    Prop where
  kind_eq : t.kind target = "class_declaration"
  name_eq : t.childByField target "name" = some name
  body_eq : t.childByField target "body" = some body
  body_kind : t.kind body = "declaration_list"
  children_eq : t.children body = front ++ [close]
  front_kind : ∀ c ∈ front, t.kind c ≠ "\x7d"
  close_kind : t.kind close = "\x7d"

theorem PhpShaped.exists_classAt (h : PhpShaped t) (hm : target ∈ t.classes) :
    ∃ name body front close, t.ClassAt target name body front close := by
  obtain ⟨hp, hk⟩ := List.mem_filter.mp hm
  rw [beq_iff_eq] at hk
  obtain ⟨name, hn⟩ := Option.isSome_iff_exists.mp (h.class_name target hp hk)
  obtain ⟨body, hbody, hb⟩ := (Option.any_eq_true _ _).mp (h.class_body target hp hk)
  simp only [isClassBody, Bool.and_eq_true, beq_iff_eq] at hb
  obtain ⟨⟨⟨hkind, _⟩, hlast⟩, hcount⟩ := hb
  obtain ⟨close, hc, hck⟩ := (Option.any_eq_true _ _).mp hlast
  obtain ⟨front, hf⟩ := List.getLast?_eq_some_iff.mp hc
  rw [hf, List.countP_append, List.countP_singleton, if_pos hck] at hcount
  have hfront : ∀ c ∈ front, t.kind c ≠ "\x7d" := by
    have hzero : front.countP (fun c => t.kind c == "\x7d") = 0 := by omega
    simpa [List.countP_eq_zero] using hzero
  exact ⟨name, body, front, close, hk, hn, hbody, hkind, hf, hfront, beq_iff_eq.mp hck⟩

section Target

variable {target name body close : Nat} {front : List Nat}

theorem ClassAt.body_mem (h : ClassAt t target name body front close) :
    body ∈ t.children target :=
  mem_children_of_childByField h.body_eq

theorem ClassAt.name_mem (h : ClassAt t target name body front close) :
    name ∈ t.children target :=
  mem_children_of_childByField h.name_eq

theorem ClassAt.close_mem (h : ClassAt t target name body front close) :
    close ∈ t.children body := by
  rw [h.children_eq]
  exact List.mem_append_right _ List.mem_cons_self

theorem ClassAt.target_lt (h : ClassAt t target name body front close) : target < t.size :=
  lt_size_of_mem_children h.name_mem

theorem ClassAt.body_ne_target (h : ClassAt t target name body front close) : body ≠ target := by
  rintro rfl
  have hk := h.kind_eq
  rw [h.body_kind] at hk
  simp at hk

theorem ClassAt.name_ne_body (h : ClassAt t target name body front close) : name ≠ body := by
  rintro rfl
  have hf := field_of_childByField h.name_eq
  rw [field_of_childByField h.body_eq] at hf
  simp at hf

end Target

theorem ClassAt.declares (h : ClassAt t target name body front close) :
    t.isDeclaration target = true :=
  isDeclaration_of_class h.kind_eq

theorem PhpShaped.plain_below_name (h : PhpShaped t) (hp : Preordered t) (hd : t.isDeclaration d)
    (hn : t.childByField d "name" = some n) (hx : x ∈ t.preorderFrom n) :
    t.isDeclaration x = false := by
  have hlt := lt_size_of_mem_children (mem_children_of_childByField hn)
  exact h.plain_name d (hp.mem_preorder.mpr hlt) hd n hn x hx

theorem PhpShaped.name_plain (h : PhpShaped t) (hp : Preordered t) (hd : t.isDeclaration d)
    (hn : t.childByField d "name" = some n) : t.isDeclaration n = false :=
  h.plain_below_name hp hd hn (t.mem_preorderFrom_self n)

theorem PhpShaped.notMem_children_of_name (hs : PhpShaped t) (hp : Preordered t)
    (hd : t.isDeclaration d = true) (hn : t.childByField d "name" = some n)
    (hy : y ∈ t.preorderFrom n) (hx : x ∈ t.children y) (hz : t.isDeclaration z = true) :
    x ∉ t.children z := by
  intro hxz
  obtain rfl := hp.parent_unique hx hxz
  have hplain := hs.plain_below_name hp hd hn hy
  rw [hz] at hplain
  cases hplain

theorem ClassAt.body_notMem_name {target name body close : Nat} {front : List Nat}
    (hc : ClassAt t target name body front close) (hp : Preordered t) (hs : PhpShaped t)
    (hd : t.isDeclaration d = true) (hn : t.childByField d "name" = some n) :
    body ∉ t.preorderFrom n := by
  intro hbody
  rcases hp.ascending.ranked.exists_parent n body hbody with rfl | ⟨z, hz, hbz⟩
  · have hf := field_of_childByField hn
    rw [field_of_childByField hc.body_eq] at hf
    simp at hf
  · exact hs.notMem_children_of_name hp hd hn hz hbz hc.declares hc.body_mem

theorem visit_of_ne (h : x ≠ target) (u : ClassUpdate) :
    u.visit target s x =
      if s.kind x = "namespace_definition" then s.rename x u.namesp else s := by
  simp only [ClassUpdate.visit, beq_iff_eq, h, if_false]

theorem namedBy_cons_of_kind (h : t.kind x ≠ "namespace_definition") :
    t.namedBy (x :: l) i = t.namedBy l i := by
  simp [namedBy, h]

theorem namedBy_cons_of_name (h : t.childByField x "name" ≠ some i) :
    t.namedBy (x :: l) i = t.namedBy l i := by
  simp [namedBy, h]

/-- A visit to a node other than the target renames it if it is a namespace definition. -/
theorem Stage.visit (hp : Preordered t) (hs : PhpShaped t)
    (hk : t.kind target = "class_declaration") (h : Stage t s target) (u : ClassUpdate)
    (hx : x < t.size) (hne : x ≠ target) :
    Stage t (u.visit target s x) target ∧ (u.visit target s x).size = s.size ∧
      ∀ i, (u.visit target s x).node i =
        if t.namedBy [x] i then (s.node i).replaced u.namesp else s.node i := by
  rw [visit_of_ne hne, h.kind_eq x hx]
  split
  · rename_i hns
    rw [rename, h.childByField_eq hp.ascending hx (.inl hns)]
    cases hn : t.childByField x "name" with
    | none => exact ⟨h, rfl, fun i => by simp [namedBy, hn]⟩
    | some c =>
      have hc := (hp.ascending x c (mem_children_of_childByField hn)).2
      have hplain := hs.name_plain hp (isDeclaration_of_namespace hns) hn
      simp only [isDeclaration, Bool.or_eq_false_iff, beq_eq_false_iff_ne] at hplain
      have hct : c ≠ target := by
        rintro rfl
        exact hplain.2 hk
      refine ⟨h.replaceWithText hc hplain.1 hct _, size_replaceWithText .., ?_⟩
      intro i
      by_cases hi : i = c
      · subst i
        rw [node_replaceWithText_self (Nat.lt_of_lt_of_le hc h.size_le), if_pos]
        exact namedBy_iff.mpr ⟨x, List.mem_cons_self, hns, hn⟩
      · rw [node_replaceWithText_of_ne hi, namedBy_cons_of_name, if_neg (by simp [namedBy])]
        rw [hn]
        exact fun he => hi (Option.some.inj he).symm
  · rename_i hns
    refine ⟨h, rfl, ?_⟩
    intro i
    rw [namedBy_cons_of_kind hns, if_neg (by simp [namedBy])]

theorem namedBy_append (t : SyntaxTree) (l l' : List Nat) (i : Nat) :
    t.namedBy (l ++ l') i = (t.namedBy l i || t.namedBy l' i) :=
  List.any_append

theorem replaced_ite (n : SyntaxNode) (text : String) (a b : Bool) :
    (if b then (if a then n.replaced text else n).replaced text
      else if a then n.replaced text else n) = if a || b then n.replaced text else n := by
  cases a <;> cases b <;> rfl

theorem Stage.foldl_visit (hp : Preordered t) (hs : PhpShaped t)
    (hk : t.kind target = "class_declaration") (h : Stage t s target) (u : ClassUpdate)
    (hl : ∀ x ∈ l, x < t.size ∧ x ≠ target) :
    Stage t (l.foldl (u.visit target) s) target ∧ (l.foldl (u.visit target) s).size = s.size ∧
      ∀ i, (l.foldl (u.visit target) s).node i =
        if t.namedBy l i then (s.node i).replaced u.namesp else s.node i := by
  induction l generalizing s with
  | nil => exact ⟨h, rfl, fun _ => rfl⟩
  | cons x l ih =>
    obtain ⟨hx, hne⟩ := hl x List.mem_cons_self
    obtain ⟨h₁, hsize₁, hnode₁⟩ := h.visit hp hs hk u hx hne
    obtain ⟨h₂, hsize₂, hnode₂⟩ := ih h₁ fun y hy => hl y (List.mem_cons_of_mem _ hy)
    refine ⟨h₂, hsize₂.trans hsize₁, ?_⟩
    intro i
    have hcons : t.namedBy (x :: l) i = (t.namedBy [x] i || t.namedBy l i) :=
      t.namedBy_append [x] l i
    rw [List.foldl_cons, hnode₂ i, hnode₁ i, hcons]
    exact replaced_ite ..

/-- What an update makes of a tree: `ids` are the stubs. -/
structure Updated (t m : SyntaxTree) (u : ClassUpdate) (name body : Nat) (front : List Nat)
    (close : Nat) (ids : List Nat) : Prop where
  size_le : t.size ≤ m.size
  source_eq : m.source = t.source
  namespace_eq : ∀ i, t.isNamespaceName i = true → m.node i = (t.node i).replaced u.namesp
  name_eq : m.node name = (t.node name).replaced u.className
  body_eq : m.node body = { t.node body with children := front ++ ids ++ [close] }
  frame : ∀ i < t.size, t.isNamespaceName i = false → i ≠ name → i ≠ body → m.node i = t.node i
  stubs : List.Forall₂ (m.StubAt body) ids u.methods
  fresh : ∀ a ∈ ids, t.size ≤ a ∧ a < m.size
  ascending : ∀ i, t.size ≤ i → ∀ c ∈ m.children i, i < c ∧ c < m.size

/-- The names of declarations give way to texts, the body of the class gets the stubs, and all other
nodes stay as they are. -/
theorem Updated.node_cases (h : Updated t m u name body front close ids) (hi : i < t.size) :
    (∃ x, (t.isNamespaceName i = true ∨ i = name) ∧ m.node i = (t.node i).replaced x) ∨
      (i = body ∧ m.node i = { t.node i with children := front ++ ids ++ [close] }) ∨
      (i ≠ body ∧ m.node i = t.node i) := by
  cases hns : t.isNamespaceName i with
  | true => exact .inl ⟨_, .inl rfl, h.namespace_eq i hns⟩
  | false =>
    by_cases hname : i = name
    · exact .inl ⟨_, .inr hname, hname ▸ h.name_eq⟩
    · by_cases hbody : i = body
      · exact .inr (.inl ⟨hbody, hbody ▸ h.body_eq⟩)
      · exact .inr (.inr ⟨hbody, h.frame i hi hns hname hbody⟩)

theorem Updated.exists_stubAt (h : Updated t m u name body front close ids) (ha : a ∈ ids) :
    ∃ method, m.StubAt body a method := by
  obtain ⟨method, _, hz⟩ := exists_mem_zip h.stubs.length_eq ha
  exact ⟨method, List.forall₂_zip h.stubs hz⟩

section Target

variable {target name body close : Nat} {front : List Nat}

theorem ClassAt.not_namedBy (hc : ClassAt t target name body front close) (hp : Preordered t)
    (hm : c ∈ t.children target) (l : List Nat) : t.namedBy l c = false := by
  cases h : t.namedBy l c with
  | false => rfl
  | true =>
    obtain ⟨x, _, hk, hn⟩ := namedBy_iff.mp h
    obtain rfl := hp.parent_unique (mem_children_of_childByField hn) hm
    rw [hc.kind_eq] at hk
    simp at hk

theorem ClassAt.ne_of_isNamespaceName (hc : ClassAt t target name body front close)
    (hp : Preordered t) (hm : c ∈ t.children target) (hi : t.isNamespaceName i = true) : i ≠ c := by
  rintro rfl
  rw [isNamespaceName, hc.not_namedBy hp hm] at hi
  cases hi

theorem ClassAt.exists_declaration (hc : ClassAt t target name body front close)
    (h : t.isNamespaceName i = true ∨ i = name) :
    ∃ d, t.isDeclaration d = true ∧ t.childByField d "name" = some i := by
  rcases h with hns | rfl
  · obtain ⟨d, _, hk, hn⟩ := namedBy_iff.mp hns
    exact ⟨d, isDeclaration_of_namespace hk, hn⟩
  · exact ⟨target, hc.declares, hc.name_eq⟩

/-- An update leaves a node alone that is neither the name of a declaration nor the body. -/
theorem Updated.node_of_unnamed (h : Updated t m u name body front close ids)
    (hc : ClassAt t target name body front close) (hi : i < t.size)
    (hname : ∀ d, t.isDeclaration d = true → t.childByField d "name" ≠ some i) (hb : i ≠ body) :
    m.node i = t.node i := by
  rcases h.node_cases hi with ⟨_, hset, _⟩ | ⟨rfl, _⟩ | ⟨_, hn⟩
  · obtain ⟨d, hd, hn⟩ := hc.exists_declaration hset
    exact absurd hn (hname d hd)
  · exact absurd rfl hb
  · exact hn

theorem ClassAt.stage_rename (hc : ClassAt t target name body front close) (hp : Preordered t)
    (hs : PhpShaped t) (h : Stage t s target) (text : String) :
    Stage t (s.replaceWithText name text) target := by
  have hlt := hp.ascending target name hc.name_mem
  have hplain := hs.name_plain hp hc.declares hc.name_eq
  simp only [isDeclaration, Bool.or_eq_false_iff, beq_eq_false_iff_ne] at hplain
  exact h.replaceWithText hlt.2 hplain.1 (Nat.ne_of_gt hlt.1) text

/-- Visiting the target renames it and adds the stubs to its body. -/
theorem ClassAt.visit_target (hc : ClassAt t target name body front close) (hp : Preordered t)
    (hs : PhpShaped t) (h : Stage t s target) (u : ClassUpdate) :
    u.visit target s target =
      u.methods.foldl (addStub body) (s.replaceWithText name u.className) := by
  have hk : s.kind target ≠ "namespace_definition" := by
    rw [h.kind_eq target hc.target_lt, hc.kind_eq]
    simp
  have hn : s.rename target u.className = s.replaceWithText name u.className := by
    rw [rename, h.childByField_eq hp.ascending hc.target_lt (.inr rfl), hc.name_eq]
  have hb : (s.replaceWithText name u.className).childByField target "body" = some body := by
    have hstage := hc.stage_rename hp hs h u.className
    rw [hstage.childByField_eq hp.ascending hc.target_lt (.inr rfl), hc.body_eq]
  simp only [ClassUpdate.visit, beq_iff_eq, hk, if_false, if_true, hn, hb]

theorem ClassAt.stage_stubbed (hc : ClassAt t target name body front close) (hp : Preordered t)
    (h : Stage t s target) (hsize : s.size = t.size)
    (hu : s.Stubbed r body front' close' names ids) : Stage t r target := by
  have hb := (hp.ascending target body hc.body_mem).2
  have hnode : ∀ i < t.size, i ≠ body → r.node i = s.node i := by
    intro i hi hne
    exact hu.frame i (by omega) hne
  refine ⟨by have := hu.size_le; omega, hu.source_eq.trans h.source_eq, ?_, ?_, ?_⟩
  · intro i hi
    by_cases he : i = body
    · subst i
      rw [kind, hu.body_eq]
      exact h.kind_eq body hi
    · rw [kind, hnode i hi he]
      exact h.kind_eq i hi
  · intro i hi
    by_cases he : i = body
    · subst i
      rw [hu.body_eq]
      exact h.field_eq body hi
    · rw [hnode i hi he]
      exact h.field_eq i hi
  · intro i hi hd
    have he : i ≠ body := by
      rintro rfl
      rw [hc.body_kind] at hd
      exact hd.elim (by simp) hc.body_ne_target
    rw [children, hnode i hi he]
    exact h.children_eq i hi hd

theorem Preordered.split_at (hp : Preordered t) (ht : target < t.size) :
    ∃ pre post, t.preorder = pre ++ target :: post ∧
      (∀ x ∈ pre, x < t.size ∧ x ≠ target) ∧ ∀ x ∈ post, x < t.size ∧ x ≠ target := by
  obtain ⟨pre, post, he⟩ := List.append_of_mem (hp.mem_preorder.mpr ht)
  have hnd : t.preorder.Nodup := by
    rw [hp.preorder_eq]
    exact List.nodup_range
  rw [he, List.nodup_append, List.nodup_cons] at hnd
  refine ⟨pre, post, he, ?_, ?_⟩
  · intro x hx
    refine ⟨hp.mem_preorder.mp (by simp [he, hx]), ?_⟩
    exact hnd.2.2 x hx target List.mem_cons_self
  · intro x hx
    refine ⟨hp.mem_preorder.mp (by simp [he, hx]), ?_⟩
    rintro rfl
    exact hnd.2.1.1 hx

theorem isNamespaceName_split (he : t.preorder = pre ++ target :: post)
    (hk : t.kind target = "class_declaration") (i : Nat) :
    t.isNamespaceName i = (t.namedBy pre i || t.namedBy post i) := by
  rw [isNamespaceName, he, namedBy_append, namedBy_cons_of_kind (by simp [hk])]

theorem lt_size_of_namedBy (hp : Preordered t) (h : t.namedBy l i = true) : i < t.size := by
  obtain ⟨x, _, _, hn⟩ := namedBy_iff.mp h
  exact (hp.ascending x i (mem_children_of_childByField hn)).2

theorem ClassAt.updated_of_stages (hc : ClassAt t target name body front close)
    (hp : Preordered t) (he : t.preorder = pre ++ target :: post) (u : ClassUpdate)
    (hsize₁ : s₁.size = t.size)
    (hnode₁ : ∀ i, s₁.node i =
      if t.namedBy pre i then (t.node i).replaced u.namesp else t.node i)
    (hst : (s₁.replaceWithText name u.className).Stubbed s₃ body front close u.methods ids)
    (hsource : m.source = t.source) (hsize : m.size = s₃.size)
    (hnode : ∀ i, m.node i =
      if t.namedBy post i then (s₃.node i).replaced u.namesp else s₃.node i) :
    t.Updated m u name body front close ids := by
  have hname := (hp.ascending target name hc.name_mem).2
  have hnot : ∀ {c l}, c ∈ t.children target → t.namedBy l c = false :=
    fun hm => hc.not_namedBy hp hm _
  have hsize₂ := hst.size_le
  have hfirst := hst.fresh
  rw [size_replaceWithText, hsize₁] at hsize₂ hfirst
  -- A node that is neither the name nor the body of the target passes the middle stages untouched.
  have hother : ∀ i < t.size, i ≠ name → i ≠ body → m.node i =
      if t.isNamespaceName i then (t.node i).replaced u.namesp else t.node i := by
    intro i hi hn hb
    rw [hnode, hst.frame i (by rw [size_replaceWithText]; omega) hb, node_replaceWithText_of_ne hn,
      hnode₁, isNamespaceName_split he hc.kind_eq]
    exact replaced_ite ..
  have hnew : ∀ i, t.size ≤ i → m.node i = s₃.node i := by
    intro i hi
    rw [hnode, if_neg]
    intro h
    exact absurd (lt_size_of_namedBy hp h) (Nat.not_lt_of_le hi)
  refine ⟨by omega, hsource, ?_, ?_, ?_, ?_, ?_, ?_, ?_⟩
  · intro i hi
    rw [hother i (lt_size_of_namedBy hp hi) (hc.ne_of_isNamespaceName hp hc.name_mem hi)
      (hc.ne_of_isNamespaceName hp hc.body_mem hi), if_pos hi]
  · rw [hnode, hnot hc.name_mem, hst.frame name (by rw [size_replaceWithText]; omega)
      hc.name_ne_body, node_replaceWithText_self (by omega), hnode₁, hnot hc.name_mem]
    rfl
  · rw [hnode, hnot hc.body_mem, hst.body_eq, node_replaceWithText_of_ne hc.name_ne_body.symm,
      hnode₁, hnot hc.body_mem]
    rfl
  · intro i hi hns hn hb
    rw [hother i hi hn hb, hns]
    rfl
  · have hall := (List.forall₂_and_left _ _).mpr ⟨hfirst, hst.stubs⟩
    refine hall.imp ?_
    rintro a n ⟨hfresh, hstub⟩
    exact hstub.congr fun i hi _ => hnew i (Nat.le_trans hfresh.1 hi)
  · intro a ha
    rw [hsize]
    exact hfirst a ha
  · intro i hi c hm
    rw [children, hnew i hi] at hm
    rw [hsize]
    exact hst.ascending i (by rw [size_replaceWithText]; omega) c hm

/-- An update renames the namespaces and the target, and adds the stubs to the target's body. -/
theorem ClassAt.updated_update (hc : ClassAt t target name body front close) (hp : Preordered t)
    (hs : PhpShaped t) (u : ClassUpdate) :
    ∃ ids, t.Updated (t.update u target) u name body front close ids := by
  obtain ⟨pre, post, he, hpre, hpost⟩ := hp.split_at hc.target_lt
  have hbody := (hp.ascending target body hc.body_mem).2
  have hclose := hp.ascending body close hc.close_mem
  have hm : t.update u target = post.foldl (u.visit target)
      (u.visit target (pre.foldl (u.visit target) t) target) := by
    rw [update, visitAll, he, List.foldl_append, List.foldl_cons]
  obtain ⟨h₁, hsize₁, hnode₁⟩ := (Stage.refl t target).foldl_visit hp hs hc.kind_eq u hpre
  rw [hc.visit_target hp hs h₁ u] at hm
  generalize pre.foldl (u.visit target) t = s₁ at hm h₁ hsize₁ hnode₁
  have h₂ := hc.stage_rename hp hs h₁ u.className
  have hcs : (s₁.replaceWithText name u.className).children body = front ++ [close] := by
    rw [children, node_replaceWithText_of_ne hc.name_ne_body.symm, hnode₁,
      hc.not_namedBy hp hc.body_mem]
    exact hc.children_eq
  have hk : (s₁.replaceWithText name u.className).kind close = "\x7d" := by
    rw [h₂.kind_eq close hclose.2, hc.close_kind]
  have hsize₂ : (s₁.replaceWithText name u.className).size = t.size := by
    rw [size_replaceWithText, hsize₁]
  obtain ⟨ids, hst⟩ := stubbed_foldl_addStub (by omega) (by omega) (Nat.ne_of_gt hclose.1) hcs hk
    u.methods
  have h₃ := hc.stage_stubbed hp h₂ hsize₂ hst
  obtain ⟨h₄, hsize₄, hnode₄⟩ := h₃.foldl_visit hp hs hc.kind_eq u hpost
  rw [← hm] at h₄ hsize₄ hnode₄
  exact ⟨ids, hc.updated_of_stages hp he u hsize₁ hnode₁ hst h₄.source_eq hsize₄ hnode₄⟩

theorem Updated.node_of_mem_children (h : Updated t m u name body front close ids)
    (hc : ClassAt t target name body front close) (hp : Preordered t)
    (hk : t.kind i ≠ "namespace_definition") (hi : i ≠ target) (hm : c ∈ t.children i) :
    m.node c = t.node c := by
  have hne : ∀ d ∈ t.children target, c ≠ d := by
    rintro d hd rfl
    exact hi (hp.parent_unique hm hd)
  have hns : t.isNamespaceName c = false := by
    cases hx : t.isNamespaceName c with
    | false => rfl
    | true =>
      obtain ⟨z, _, hz, hn⟩ := namedBy_iff.mp hx
      obtain rfl := hp.parent_unique hm (mem_children_of_childByField hn)
      exact absurd hz hk
  exact h.frame c (hp.ascending i c hm).2 hns (hne name hc.name_mem) (hne body hc.body_mem)

theorem Updated.node_of_mem_body (h : Updated t m u name body front close ids)
    (hc : ClassAt t target name body front close) (hp : Preordered t)
    (hm : c ∈ t.children body) : m.node c = t.node c :=
  h.node_of_mem_children hc hp (by simp [hc.body_kind]) hc.body_ne_target hm

end Target

/-- A tree with a class can be merged, and the merged tree is an update of the target. -/
theorem PhpShaped.exists_updated (hs : PhpShaped t) (hp : Preordered t) (hc : t.hasClass = true)
    (namesp className : String) (names : List String) :
    ∃ target m name body front close ids, t.targetClass className = some target ∧
      t.merge namesp className names = .ok m ∧ t.ClassAt target name body front close ∧
      t.Updated m ⟨namesp, className, names⟩ name body front close ids := by
  cases h : t.targetClass className with
  | none =>
    rw [targetClass_eq_none_iff] at h
    simp [hasClass, h] at hc
  | some target =>
    obtain ⟨name, body, front, close, hclass⟩ := hs.exists_classAt (mem_classes_of_targetClass h)
    obtain ⟨ids, hu⟩ := hclass.updated_update hp hs ⟨namesp, className, names⟩
    refine ⟨target, _, name, body, front, close, ids, rfl, ?_, hclass, hu⟩
    rw [merge, h]

end Scaffold.SyntaxTree
