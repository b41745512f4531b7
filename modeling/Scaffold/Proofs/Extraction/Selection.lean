import Mathlib.Data.List.Find
import Scaffold.Plan
import Scaffold.Proofs.Extraction.Sites
import Scaffold.Proofs.Text.Blank

namespace Scaffold.SyntaxTree
set_option autoImplicit true

variable {t : SyntaxTree}

def classSites (t : SyntaxTree) : List (Nat × Option String) :=
  t.sites.filter fun s => t.kind s.1 == "class_declaration"

theorem declaration?_eq_some (h : t.declaration? namesp i = some d) :
    t.declaredName i = some d.name ∧ declarationKind? (t.kind i) = some d.kind := by
  obtain ⟨k, hk, h⟩ := Option.bind_eq_some_iff.mp h
  obtain ⟨name, hn, rfl⟩ := Option.map_eq_some_iff.mp h
  exact ⟨hn, hk⟩

theorem declarationKind?_eq_isClass_iff {k : String} :
    declarationKind? k = some .isClass ↔ k = "class_declaration" := by
  unfold declarationKind?
  split <;> simp_all

def isExtracted (kind : String) : Bool :=
  (declarationKind? kind).isSome

theorem isExtracted_iff {kind : String} :
    isExtracted kind = true ↔ kind = "class_declaration" ∨ kind = "trait_declaration" := by
  unfold isExtracted declarationKind?
  split <;> simp_all

theorem declaration?_eq_none (h : isExtracted (t.kind i) = false) (namesp : Option String) :
    t.declaration? namesp i = none := by
  rw [isExtracted, Option.isSome_eq_false_iff, Option.isNone_iff_eq_none] at h
  rw [declaration?, h]
  rfl

theorem declaration?_of_class (hk : t.kind i = "class_declaration")
    (hn : t.declaredName i = some name) (namesp : Option String) :
    t.declaration? namesp i = some
      { name, namesp
        kind := .isClass
        methods := ((t.childByField i "body").map t.methods).getD []
        span := (t.node i).span } := by
  rw [declaration?, hk, declarationKind?_eq_isClass_iff.mpr rfl, hn, Option.bind_some,
    Option.map_some]

theorem declaredName_of_child (hc : t.childByField i "name" = some c) :
    t.declaredName i =
      if (Text.trim (t.text c)).isEmpty then none else some (Text.trim (t.text c)) := by
  simp only [declaredName, hc, Option.bind_some]

def located (t : SyntaxTree) : List (Nat × Declaration) :=
  t.sites.filterMap fun s => (t.declaration? s.2 s.1).map fun d => (s.1, d)

theorem map_snd_located (t : SyntaxTree) : t.located.map Prod.snd = t.declarations := by
  rw [located, List.map_filterMap, declarations_eq_filterMap]
  congr 1
  funext s
  rw [Option.map_map]
  exact Option.map_id'

theorem filter_located (t : SyntaxTree) :
    t.located.filter (·.2.kind == .isClass) =
      t.classSites.filterMap fun s => (t.declaration? s.2 s.1).map fun d => (s.1, d) := by
  rw [located, List.filter_filterMap, classSites, List.filterMap_filter]
  congr 1
  funext s
  cases h : t.declaration? s.2 s.1 with
  | none => simp
  | some d =>
    obtain ⟨_, hk⟩ := declaration?_eq_some h
    have hiff : (d.kind == .isClass) = (t.kind s.1 == "class_declaration") := by
      rw [Bool.eq_iff_iff, beq_iff_eq, beq_iff_eq, ← declarationKind?_eq_isClass_iff, hk,
        Option.some.injEq]
    rw [Option.map_some, Option.filter_some, hiff]

/-- The choice of the first element with a property, else of the first element. -/
def choose (p : α → Bool) (l : List α) : Option α :=
  (l.find? p).or l.head?

theorem choose_filterMap {l : List α} {f : α → Option β}
    (h : ∀ a ∈ l, ∃ b, f a = some b ∧ q b = p a) :
    choose q (l.filterMap f) = (choose p l).bind f := by
  have hfind : (l.filterMap f).find? q = (l.find? p).bind f := by
    induction l with
    | nil => rfl
    | cons a l ih =>
      obtain ⟨b, hb, hq⟩ := h a List.mem_cons_self
      have htail := ih fun c hc => h c (List.mem_cons_of_mem _ hc)
      rw [List.filterMap_cons, hb, List.find?_cons, List.find?_cons, hq, htail]
      cases p a <;> simp [hb]
  have hhead : (l.filterMap f).head? = l.head?.bind f := by
    cases l with
    | nil => rfl
    | cons a l =>
      obtain ⟨b, hb, _⟩ := h a List.mem_cons_self
      rw [List.filterMap_cons, hb, List.head?_cons, List.head?_cons, Option.bind_some, hb]
  rw [choose, choose, hfind, hhead]
  cases hf : l.find? p with
  | none => simp
  | some a =>
    obtain ⟨b, hb, _⟩ := h a (List.mem_of_find?_eq_some hf)
    simp [hb]

theorem choose_map (p : β → Bool) (f : α → β) (l : List α) :
    choose p (l.map f) = (choose (fun a => p (f a)) l).map f := by
  rw [choose, choose, List.find?_map, List.head?_map, Option.map_or]
  rfl

theorem mem_of_choose {l : List α} (h : choose p l = some a) : a ∈ l := by
  rcases Option.or_eq_some_iff.mp h with h | ⟨_, h⟩
  · exact List.mem_of_find?_eq_some h
  · exact List.mem_of_head? h

theorem choose_congr {l : List α} (h : ∀ a ∈ l, p a = q a) : choose p l = choose q l := by
  rw [choose, choose, List.find?_congr h]

theorem choose_eq_none_iff {l : List α} : choose p l = none ↔ l = [] := by
  rw [choose, Option.or_eq_none_iff, List.head?_eq_none_iff]
  constructor
  · exact And.right
  · intro h
    simp [h]

theorem classes_eq_nil_iff : t.classes = [] ↔ ∀ i ∈ t.preorder, t.kind i ≠ "class_declaration" := by
  simp [classes]

theorem targetClass_eq_none_iff (className : String) :
    t.targetClass className = none ↔ t.classes = [] :=
  choose_eq_none_iff

theorem mem_classes_of_targetClass (h : t.targetClass className = some target) :
    target ∈ t.classes :=
  mem_of_choose h

def locatedTest? (t : SyntaxTree) (className : String) : Option (Nat × Declaration) :=
  choose (fun e => e.2.name == className) (t.located.filter (·.2.kind == .isClass))

theorem map_snd_locatedTest? (t : SyntaxTree) (className : String) :
    (t.locatedTest? className).map Prod.snd = t.testClass? className := by
  have hfilter : t.declarations.filter (·.kind == .isClass) =
      (t.located.filter (·.2.kind == .isClass)).map Prod.snd := by
    rw [← map_snd_located, List.filter_map]
    rfl
  rw [locatedTest?, testClass?, hfilter]
  exact (choose_map (fun d : Declaration => d.name == className) Prod.snd _).symm

theorem exists_declaration_of_classSite (hs : s ∈ t.classSites)
    (hn : (t.declaredName s.1).isSome) :
    ∃ d, t.declaration? s.2 s.1 = some d ∧ t.declaredName s.1 = some d.name := by
  have hk : t.kind s.1 = "class_declaration" := by simpa using (List.mem_filter.mp hs).2
  obtain ⟨name, hname⟩ := Option.isSome_iff_exists.mp hn
  exact ⟨_, declaration?_of_class hk hname s.2, hname⟩

theorem locatedTest?_eq_choose (hn : ∀ s ∈ t.classSites, (t.declaredName s.1).isSome)
    (className : String) :
    t.locatedTest? className =
      (choose (fun s => t.declaredName s.1 == some className) t.classSites).bind fun s =>
        (t.declaration? s.2 s.1).map fun d => (s.1, d) := by
  rw [locatedTest?, filter_located]
  apply choose_filterMap
  intro s hs
  obtain ⟨d, hd, hname⟩ := exists_declaration_of_classSite hs (hn s hs)
  refine ⟨(s.1, d), by rw [hd]; rfl, ?_⟩
  rw [hname]
  rfl

theorem testClass?_eq_choose (hn : ∀ s ∈ t.classSites, (t.declaredName s.1).isSome)
    (className : String) :
    t.testClass? className =
      (choose (fun s => t.declaredName s.1 == some className) t.classSites).bind fun s =>
        t.declaration? s.2 s.1 := by
  rw [← map_snd_locatedTest?, locatedTest?_eq_choose hn, Option.map_bind]
  congr 1
  funext s
  rw [Function.comp_apply, Option.map_map]
  exact Option.map_id'

theorem exists_testClass? (hcs : t.classSites.map Prod.fst = cs)
    (hn : ∀ i ∈ cs, (t.declaredName i).isSome)
    (hi : choose (fun i => t.declaredName i == some className) cs = some i) :
    ∃ namesp, t.testClass? className = t.declaration? namesp i := by
  subst hcs
  rw [choose_map, Option.map_eq_some_iff] at hi
  obtain ⟨s, hs, rfl⟩ := hi
  refine ⟨s.2, ?_⟩
  rw [testClass?_eq_choose fun s hs => hn s.1 (List.mem_map_of_mem hs), hs]
  rfl

theorem map_classSites (t : SyntaxTree) :
    t.classSites.map Prod.fst =
      (t.sites.map Prod.fst).filter fun x => t.kind x == "class_declaration" := by
  rw [classSites, List.filter_map]
  rfl

theorem Scoped.map_classSites (h : Scoped t) (hp : Preordered t) :
    t.classSites.map Prod.fst = t.classes := by
  rw [SyntaxTree.map_classSites, h.sites_classes hp]

theorem Scoped.named_of_mem_classes (h : Scoped t) (hi : i ∈ t.classes) :
    (t.declaredName i).isSome := by
  obtain ⟨hp, hk⟩ := List.mem_filter.mp hi
  exact h.class_named i hp (beq_iff_eq.mp hk)

theorem Scoped.targetClass_eq_choose (h : Scoped t) (className : String) :
    t.targetClass className =
      choose (fun i => t.declaredName i == some className) t.classes := by
  apply choose_congr (p := fun i => (t.childByField i "name").any _)
  intro i hi
  have hn := h.named_of_mem_classes hi
  cases hc : t.childByField i "name" with
  | none =>
    rw [declaredName, hc]
    rfl
  | some c =>
    rw [declaredName_of_child hc] at hn ⊢
    split at hn
    · cases hn
    · rename_i he
      simp [he]

/-- A plan reads the class that a merge takes for its target. -/
theorem Scoped.exists_testClass?_of_targetClass (h : Scoped t) (hp : Preordered t)
    (ht : t.targetClass className = some target) :
    ∃ namesp, t.testClass? className = t.declaration? namesp target := by
  rw [h.targetClass_eq_choose] at ht
  exact exists_testClass? (h.map_classSites hp) (fun i hi => h.named_of_mem_classes hi) ht

theorem Scoped.map_fst_locatedTest? (h : Scoped t) (hp : Preordered t) (className : String) :
    (t.locatedTest? className).map Prod.fst = t.targetClass className := by
  have hsites := h.map_classSites hp
  have hn : ∀ s ∈ t.classSites, (t.declaredName s.1).isSome := by
    intro s hs
    apply h.named_of_mem_classes
    rw [← hsites]
    exact List.mem_map_of_mem hs
  rw [locatedTest?_eq_choose hn, h.targetClass_eq_choose, ← hsites, choose_map]
  cases hc : choose (fun s => t.declaredName s.1 == some className) t.classSites with
  | none => rfl
  | some s =>
    have hs := mem_of_choose hc
    obtain ⟨d, hd, _⟩ := exists_declaration_of_classSite hs (hn s hs)
    rw [Option.bind_some, hd]
    rfl

/-- The plan and the merge look at one class: the declaration that a plan reads stands at the very
node that a merge takes for its target, and both find none exactly in a tree without a class. -/
theorem planned_class_is_target (origin source className : String) (c : Concrete)
    (hs : (c.lower origin source).Scoped) :
    ((c.lower origin source).locatedTest? className).map Prod.snd =
        (c.lower origin source).testClass? className ∧
      ((c.lower origin source).locatedTest? className).map Prod.fst =
        (c.lower origin source).targetClass className ∧
      ((c.lower origin source).testClass? className = none ↔
        (c.lower origin source).hasClass = false) ∧
      ((c.lower origin source).targetClass className = none ↔
        (c.lower origin source).hasClass = false) := by
  have hp := c.lower_preordered origin source
  generalize c.lower origin source = t at hp hs ⊢
  have hsnd := t.map_snd_locatedTest? className
  have hfst := hs.map_fst_locatedTest? hp className
  have hnone : t.targetClass className = none ↔ t.hasClass = false := by
    rw [targetClass_eq_none_iff, hasClass, Bool.not_eq_false', List.isEmpty_iff]
  refine ⟨hsnd, hfst, ?_, hnone⟩
  rw [← hnone, ← hsnd, ← hfst, Option.map_eq_none_iff, Option.map_eq_none_iff]

/-- A class and a trait in the body of a namespace definition, and a class behind it. -/
def scatteredSource : String :=
  "namespace A \x7b class B \x7b\x7d trait T \x7b\x7d \x7d class C \x7b\x7d"

def scattered : Concrete :=
  .node "program" true none ⟨0, 48⟩
    [.node "namespace_definition" true none ⟨0, 37⟩
      [.node "namespace" false none ⟨0, 9⟩ [],
        .node "namespace_name" true (some "name") ⟨10, 11⟩ [],
        .node "compound_statement" true (some "body") ⟨12, 37⟩
          [.node "\x7b" false none ⟨12, 13⟩ [],
            .node "class_declaration" true none ⟨14, 24⟩
              [.node "class" false none ⟨14, 19⟩ [],
                .node "name" true (some "name") ⟨20, 21⟩ [],
                .node "declaration_list" true (some "body") ⟨22, 24⟩
                  [.node "\x7b" false none ⟨22, 23⟩ [], .node "\x7d" false none ⟨23, 24⟩ []]],
            .node "trait_declaration" true none ⟨25, 35⟩
              [.node "trait" false none ⟨25, 30⟩ [],
                .node "name" true (some "name") ⟨31, 32⟩ [],
                .node "declaration_list" true (some "body") ⟨33, 35⟩
                  [.node "\x7b" false none ⟨33, 34⟩ [], .node "\x7d" false none ⟨34, 35⟩ []]],
            .node "\x7d" false none ⟨36, 37⟩ []]],
      .node "class_declaration" true none ⟨38, 48⟩
        [.node "class" false none ⟨38, 43⟩ [],
          .node "name" true (some "name") ⟨44, 45⟩ [],
          .node "declaration_list" true (some "body") ⟨46, 48⟩
            [.node "\x7b" false none ⟨46, 47⟩ [], .node "\x7d" false none ⟨47, 48⟩ []]]]

theorem planned_class_is_target_scattered :
    (scattered.lower "C.php" scatteredSource).Scoped ∧
      ((scattered.lower "C.php" scatteredSource).locatedTest? "C").map Prod.fst = some 19 ∧
      ((scattered.lower "C.php" scatteredSource).locatedTest? "D").map Prod.fst = some 6 := by
  have hs : (scattered.lower "C.php" scatteredSource).Scoped :=
    ⟨by decide +kernel, by decide +kernel⟩
  have hc := planned_class_is_target "C.php" scatteredSource "C" scattered hs
  have hd := planned_class_is_target "C.php" scatteredSource "D" scattered hs
  refine ⟨hs, ?_, ?_⟩
  · rw [hc.2.1]
    decide +kernel
  · rw [hd.2.1]
    decide +kernel

end Scaffold.SyntaxTree
