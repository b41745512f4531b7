import Mathlib.Data.List.Forall2
import Scaffold.Proofs.Extraction.Methods
import Scaffold.Proofs.Extraction.Selection

namespace Scaffold.SyntaxTree
set_option autoImplicit true

variable {t : SyntaxTree}

/-- Whether a node is a namespace definition without a body, which holds for the siblings behind
it. -/
def isStatementNamespace (t : SyntaxTree) (i : Nat) : Bool :=
  t.kind i == "namespace_definition" && (t.childByField i "body").isNone

def lastStatement (t : SyntaxTree) (cs : List Nat) : Option Nat :=
  cs.reverse.find? t.isStatementNamespace

/-- The namespace that a step from a child to its parent tells, if it tells one: that of the
parent if the child is the body of a namespace definition, else that of the last definition
without a body before the child. -/
def scopeStep (t : SyntaxTree) (parent child : Nat) : Option (Option String) :=
  if t.kind parent = "namespace_definition" ∧ t.childByField parent "body" = some child then
    some (t.namedNamespace parent)
  else
    (t.lastStatement ((t.children parent).takeWhile (· != child))).map t.namedNamespace

/-- The namespace of a node: what the first step towards the root tells that tells any. -/
inductive InScope (t : SyntaxTree) : Nat → Option String → Prop where
  | root : InScope t root none
  | stops (hi : i ≠ root) (hp : (t.node i).parent = some p)
      (hs : t.scopeStep p i = some namesp) : InScope t i namesp
  | passes (hi : i ≠ root) (hp : (t.node i).parent = some p) (hs : t.scopeStep p i = none)
      (hup : InScope t p namesp) : InScope t i namesp

theorem InScope.unique (h : t.InScope i n) (h' : t.InScope i n') : n = n' := by
  induction h with
  | root =>
    cases h' with
    | root => rfl
    | stops hi _ _ => exact absurd rfl hi
    | passes hi _ _ _ => exact absurd rfl hi
  | stops hi hp hs =>
    cases h' with
    | root => exact absurd rfl hi
    | stops _ hp' hs' =>
      obtain rfl := Option.some.inj (hp.symm.trans hp')
      exact Option.some.inj (hs.symm.trans hs')
    | passes _ hp' hs' _ =>
      obtain rfl := Option.some.inj (hp.symm.trans hp')
      cases hs.symm.trans hs'
  | passes hi hp hs _ ih =>
    cases h' with
    | root => exact absurd rfl hi
    | stops _ hp' hs' =>
      obtain rfl := Option.some.inj (hp.symm.trans hp')
      cases hs.symm.trans hs'
    | passes _ hp' _ hup' =>
      obtain rfl := Option.some.inj (hp.symm.trans hp')
      exact ih hup'

def namespaceAfter (t : SyntaxTree) (namesp : Option String) (cs : List Nat) : Option String :=
  ((t.lastStatement cs).map t.namedNamespace).getD namesp

theorem namespaceAfter_concat_of_statement (h : t.isStatementNamespace c = true)
    (namesp : Option String) (cs : List Nat) :
    t.namespaceAfter namesp (cs ++ [c]) = t.namedNamespace c := by
  simp [namespaceAfter, lastStatement, h]

theorem namespaceAfter_concat_of_not (h : t.isStatementNamespace c = false)
    (namesp : Option String) (cs : List Nat) :
    t.namespaceAfter namesp (cs ++ [c]) = t.namespaceAfter namesp cs := by
  simp [namespaceAfter, lastStatement, h]

/-- A scope is a child that is no namespace definition, in the namespace in effect before it, or
the body of a definition, in the namespace of that. -/
theorem scope_of_mem_scopes (pre : List Nat)
    (hs : s ∈ t.scopes (t.namespaceAfter namesp pre) cs) :
    (∃ mid post, cs = mid ++ s.1 :: post ∧ t.kind s.1 ≠ "namespace_definition" ∧
        s.2 = t.namespaceAfter namesp (pre ++ mid)) ∨
      ∃ c ∈ cs, t.kind c = "namespace_definition" ∧ t.childByField c "body" = some s.1 ∧
        s.2 = t.namedNamespace c := by
  induction cs generalizing pre with
  | nil => cases hs
  | cons c cs ih =>
    -- What is found behind the first sibling is found with that sibling before it.
    have htail : s ∈ t.scopes (t.namespaceAfter namesp (pre ++ [c])) cs →
        (∃ mid post, c :: cs = mid ++ s.1 :: post ∧ t.kind s.1 ≠ "namespace_definition" ∧
            s.2 = t.namespaceAfter namesp (pre ++ mid)) ∨
          ∃ b ∈ c :: cs, t.kind b = "namespace_definition" ∧
            t.childByField b "body" = some s.1 ∧ s.2 = t.namedNamespace b := by
      intro hs
      rcases ih _ hs with ⟨mid, post, rfl, hk, hn⟩ | ⟨b, hb, hrest⟩
      · rw [List.append_assoc, List.singleton_append] at hn
        exact .inl ⟨c :: mid, post, rfl, hk, hn⟩
      · exact .inr ⟨b, List.mem_cons_of_mem _ hb, hrest⟩
    rw [scopes] at hs
    split at hs
    · rename_i hk
      rw [beq_iff_eq] at hk
      split at hs
      · rename_i body hbody
        have hnot : t.isStatementNamespace c = false := by
          simp [isStatementNamespace, hbody]
        rcases List.mem_cons.mp hs with rfl | hs
        · exact .inr ⟨c, List.mem_cons_self, hk, hbody, rfl⟩
        · rw [← namespaceAfter_concat_of_not hnot] at hs
          exact htail hs
      · rename_i hbody
        have hstatement : t.isStatementNamespace c = true := by
          simp [isStatementNamespace, hk, hbody]
        rw [← namespaceAfter_concat_of_statement hstatement namesp pre] at hs
        exact htail hs
    · rename_i hk
      rw [beq_iff_eq] at hk
      have hnot : t.isStatementNamespace c = false := by simp [isStatementNamespace, hk]
      rcases List.mem_cons.mp hs with rfl | hs
      · exact .inl ⟨[], cs, rfl, hk, by rw [List.append_nil]⟩
      · rw [← namespaceAfter_concat_of_not hnot] at hs
        exact htail hs

theorem takeWhile_of_nodup {l mid post : List Nat} (hl : l.Nodup) (he : l = mid ++ c :: post) :
    l.takeWhile (· != c) = mid := by
  subst he
  have hc : c ∉ mid := by
    rw [List.nodup_middle, List.nodup_cons, List.mem_append, not_or] at hl
    exact hl.1.1
  have hmid : ∀ x ∈ mid, (x != c) = true := by
    intro x hx
    simpa using fun he : x = c => hc (he ▸ hx)
  rw [List.takeWhile_append_of_pos hmid, List.takeWhile_cons_of_neg (by simp), List.append_nil]

theorem Treelike.ne_root (ht : t.Treelike) (hi : i ∈ t.preorder) (hc : c ∈ t.children i) :
    c ≠ SyntaxTree.root := by
  obtain ⟨height, hr⟩ := ht.ranked
  rintro rfl
  exact hr.parent_notMem hc hi

/-- The body of a namespace definition is no namespace definition itself. -/
def PlainBodies (t : SyntaxTree) : Prop :=
  ∀ i ∈ t.preorder, t.kind i = "namespace_definition" →
    ∀ b ∈ t.childByField i "body", t.kind b ≠ "namespace_definition"

instance (t : SyntaxTree) : Decidable t.PlainBodies :=
  inferInstanceAs (Decidable (∀ _ ∈ _, _))

theorem InScope.scopes (h : t.InScope i namesp) (ht : t.Treelike) (hb : t.PlainBodies)
    (hi : i ∈ t.preorder) (hk : t.kind i ≠ "namespace_definition")
    (hs : s ∈ t.scopes namesp (t.children i)) :
    t.InScope s.1 s.2 ∧ s.1 ∈ t.preorder ∧ t.kind s.1 ≠ "namespace_definition" := by
  rcases scope_of_mem_scopes [] hs with ⟨mid, post, hcs, hks, hn⟩ | ⟨c, hc, hkc, hbody, hn⟩
  · have hm : s.1 ∈ t.children i := by simp [hcs]
    have hp := ht.parent_of_mem hm
    have hroot := ht.ne_root hi hm
    refine ⟨?_, ht.mem_preorder_child hi hm, hks⟩
    have hstep : t.scopeStep i s.1 = (t.lastStatement mid).map t.namedNamespace := by
      rw [scopeStep, if_neg (fun hstop => hk hstop.1),
        takeWhile_of_nodup (ht.children_nodup i) hcs]
    rw [List.nil_append, namespaceAfter, ← hstep] at hn
    cases htold : t.scopeStep i s.1 with
    | none =>
      rw [htold] at hn
      exact .passes hroot hp htold (hn ▸ h)
    | some told =>
      rw [htold] at hn
      exact .stops hroot hp (hn ▸ htold)
  · have hm : s.1 ∈ t.children c := List.mem_of_find?_eq_some hbody
    have hci := ht.mem_preorder_child hi hc
    refine ⟨?_, ht.mem_preorder_child hci hm, hb c hci hkc s.1 hbody⟩
    have hstep : t.scopeStep c s.1 = some s.2 := by rw [scopeStep, if_pos ⟨hkc, hbody⟩, hn]
    exact .stops (ht.ne_root hci hm) (ht.parent_of_mem hm) hstep

/-- An extraction looks at every node in the namespace that a walk towards the root tells. -/
theorem inScope_of_mem_sitesFrom (ht : t.Treelike) (hb : t.PlainBodies) (i : Nat) :
    i ∈ t.preorder → t.kind i ≠ "namespace_definition" → ∀ namesp, t.InScope i namesp →
      ∀ s ∈ t.sitesFrom i namesp, t.InScope s.1 s.2 := by
  obtain ⟨height, hr⟩ := ht.ranked
  induction i using hr.scope_induction with
  | step i ih =>
    intro hi hk namesp hscope s hs
    rw [hr.sitesFrom_eq, List.mem_cons, List.mem_flatMap] at hs
    rcases hs with rfl | ⟨v, hv, hs⟩
    · exact hscope
    · obtain ⟨hv', hm, hkv⟩ := hscope.scopes ht hb hi hk hv
      rcases mem_scopes hv with hc | ⟨c, hc, hvc⟩
      · exact (ih v.1 hc).1 hm hkv v.2 hv' s hs
      · exact (ih c hc).2 v.1 hvc hm hkv v.2 hv' s hs

/-- Whether a node is a class or trait with a name that is not blank. -/
def isDeclared (t : SyntaxTree) (i : Nat) : Bool :=
  isExtracted (t.kind i) &&
    (t.childByField i "name").any fun c => !(Text.trim (t.text c)).isEmpty

/-- The methods with names in the body of a node, in source order. -/
def members (t : SyntaxTree) (i : Nat) : List Method :=
  ((t.childByField i "body").map fun b =>
    (t.childrenOfKind b "method_declaration").filterMap t.method?).getD []

/-- What the declaration at a node tells. -/
structure DeclaredAt (t : SyntaxTree) (i : Nat) (d : Declaration) : Prop where
  kind : declarationKind? (t.kind i) = some d.kind
  name : ∃ c, t.childByField i "name" = some c ∧ d.name = Text.trim (t.text c) ∧ d.name ≠ ""
  /-- The walk towards the root has one outcome, the declaration's namespace. -/
  scope : ∀ namesp, t.InScope i namesp ↔ d.namesp = namesp
  /-- A namespace is without blanks and without backslashes at the front. -/
  clean : ∀ namesp ∈ d.namesp,
    (∀ c ∈ namesp.toList, Text.isBlank c = false) ∧ namesp.toList.head? ≠ some '\\'
  /-- The methods are in source order, -/
  ordered : d.methods.Sublist (t.members i)
  /-- and of each name up to ASCII case it is the first one. -/
  first : ∀ key, d.methods.filter (methodKey · == key) =
    ((t.members i).filter (methodKey · == key)).take 1
  span : d.span = (t.node i).span

theorem isDeclared_eq_isSome (t : SyntaxTree) (namesp : Option String) (i : Nat) :
    (t.declaration? namesp i).isSome = t.isDeclared i := by
  rw [declaration?, isDeclared, isExtracted, declaredName]
  cases declarationKind? (t.kind i) with
  | none => rfl
  | some k =>
    cases t.childByField i "name" with
    | none => rfl
    | some c =>
      simp only [Option.bind_some, Option.isSome_some, Option.any_some, Bool.true_and]
      cases hn : (Text.trim (t.text c)).isEmpty <;> rfl

theorem clean_cleanNamespace (text : String) :
    (∀ c ∈ (cleanNamespace text).toList, Text.isBlank c = false) ∧
      (cleanNamespace text).toList.head? ≠ some '\\' := by
  rw [cleanNamespace, String.toList_ofList]
  constructor
  · intro c hc
    have hm := (List.dropWhile_sublist _).subset hc
    simpa using (List.mem_filter.mp hm).2
  · intro hhead
    have hnot := List.head?_dropWhile_not (· == '\\') (text.toList.filter (!Text.isBlank ·))
    rw [hhead] at hnot
    simp at hnot

theorem InScope.clean (h : t.InScope i namesp) : ∀ n ∈ namesp,
    (∀ c ∈ n.toList, Text.isBlank c = false) ∧ n.toList.head? ≠ some '\\' := by
  have hnamed : ∀ j, ∀ n ∈ t.namedNamespace j,
      (∀ c ∈ n.toList, Text.isBlank c = false) ∧ n.toList.head? ≠ some '\\' := by
    intro j n hn
    obtain ⟨c, _, rfl⟩ := Option.map_eq_some_iff.mp hn
    exact clean_cleanNamespace _
  induction h with
  | root => nofun
  | stops _ _ hs =>
    rw [scopeStep] at hs
    split at hs
    · cases hs
      exact hnamed _
    · obtain ⟨j, _, rfl⟩ := Option.map_eq_some_iff.mp hs
      exact hnamed j
  | passes _ _ _ _ ih => exact ih

theorem declaredAt_of_declaration? (h : t.declaration? namesp i = some d)
    (hs : t.InScope i namesp) : t.DeclaredAt i d := by
  obtain ⟨k, hk, h⟩ := Option.bind_eq_some_iff.mp h
  obtain ⟨name, hn, rfl⟩ := Option.map_eq_some_iff.mp h
  obtain ⟨c, hc, hname⟩ := Option.bind_eq_some_iff.mp hn
  have hmethods : ((t.childByField i "body").map t.methods).getD [] =
      firstOfName [] (t.members i) := by
    rw [members]
    cases t.childByField i "body" <;> rfl
  refine ⟨hk, ?_, fun n => ⟨fun hs' => hs.unique hs', fun he => he ▸ hs⟩, hs.clean, ?_, ?_, rfl⟩
  · simp only at hname
    split at hname
    · cases hname
    · rename_i hne
      cases hname
      exact ⟨c, hc, rfl, by simpa using hne⟩
  · simp only [hmethods]
    exact firstOfName_sublist _ _
  · intro key
    simp only [hmethods]
    rw [filter_firstOfName, if_neg List.not_mem_nil]

theorem forall₂_filterMap (f : α → Option β) (l : List α) :
    List.Forall₂ (fun a b => f a = some b) (l.filter fun a => (f a).isSome) (l.filterMap f) := by
  induction l with
  | nil => exact .nil
  | cons a l ih =>
    cases h : f a with
    | none => simpa [h] using ih
    | some b => simpa [h] using ih

/-- An extraction lists every class and trait that can be reached and has a name, once each and in
preorder, and tells its namespace and its methods. No class or trait may stand in a namespace
definition but in its body, and this body may be no namespace definition itself. -/
theorem declarations_scoped (t : SyntaxTree) (ht : t.Treelike)
    (hroot : t.kind root ≠ "namespace_definition") (hplain : t.InBodies isExtracted)
    (hb : t.PlainBodies) :
    List.Forall₂ t.DeclaredAt (t.preorder.filter t.isDeclared) t.declarations ∧
      t.preorder.Nodup := by
  refine ⟨?_, ht.nodup_preorder⟩
  have hself : root ∈ t.preorder := t.mem_preorderFrom_self root
  have hnodes : (t.sites.filter fun s => t.isDeclared s.1).map Prod.fst =
      t.preorder.filter t.isDeclared := by
    have hextracted : ∀ i, (t.isDeclared i && isExtracted (t.kind i)) = t.isDeclared i := by
      intro i
      rw [isDeclared, Bool.and_right_comm, Bool.and_self]
    have hsites := congrArg (List.filter t.isDeclared) (hplain.map_sites ht (by decide))
    simp only [List.filter_filter, hextracted] at hsites
    rw [← hsites, List.filter_map]
    rfl
  have hfound := forall₂_filterMap (fun s => t.declaration? s.2 s.1) t.sites
  simp only [isDeclared_eq_isSome] at hfound
  rw [← declarations_eq_filterMap] at hfound
  have hscope : ∀ s ∈ t.sites.filter fun s => t.isDeclared s.1, t.InScope s.1 s.2 := by
    intro s hs
    exact inScope_of_mem_sitesFrom ht hb root hself hroot none .root s (List.mem_of_mem_filter hs)
  rw [← hnodes, List.forall₂_map_left_iff]
  refine ((List.forall₂_and_left _ _).mpr ⟨hscope, hfound⟩).imp ?_
  rintro s d ⟨hs, hd⟩
  exact declaredAt_of_declaration? hd hs

theorem declarations_scoped_scattered :
    (scattered.lower "C.php" scatteredSource).Treelike ∧
      (scattered.lower "C.php" scatteredSource).kind root ≠ "namespace_definition" ∧
      (scattered.lower "C.php" scatteredSource).InBodies isExtracted ∧
      (scattered.lower "C.php" scatteredSource).PlainBodies ∧
      List.Forall₂ (scattered.lower "C.php" scatteredSource).DeclaredAt [6, 12, 19]
        (scattered.lower "C.php" scatteredSource).declarations := by
  have ht := (scattered.lower_preordered "C.php" scatteredSource).treelike
  have hroot : (scattered.lower "C.php" scatteredSource).kind root ≠ "namespace_definition" := by
    decide
  have hplain : (scattered.lower "C.php" scatteredSource).InBodies isExtracted := by
    decide +kernel
  have hb : (scattered.lower "C.php" scatteredSource).PlainBodies := by decide +kernel
  have hnodes : (scattered.lower "C.php" scatteredSource).preorder.filter
      (scattered.lower "C.php" scatteredSource).isDeclared = [6, 12, 19] := by
    decide +kernel
  have hfound := (declarations_scoped _ ht hroot hplain hb).1
  rw [hnodes] at hfound
  exact ⟨ht, hroot, hplain, hb, hfound⟩

/-- A class in a namespace definition that is the body of another one. -/
def doubleNamespace : SyntaxTree :=
  let t := (Concrete.node "program" true none ⟨0, 6⟩
    [.node "php_tag" true none ⟨0, 5⟩ []]).lower "A.php" "<?php\n"
  let t := t.push (.branch "namespace_definition")
  let t := t.pushChild 2 ((SyntaxNode.leaf "namespace_name" "A").withField "name")
  let t := t.pushChild 2 ((SyntaxNode.branch "namespace_definition").withField "body")
  let t := t.pushChild 4 ((SyntaxNode.leaf "namespace_name" "B").withField "name")
  let t := t.pushChild 4 ((SyntaxNode.branch "compound_statement").withField "body")
  let t := t.pushChild 6 (.branch "class_declaration")
  let t := t.pushChild 7 ((SyntaxNode.leaf "name" "C").withField "name")
  t.appendChild root 2

theorem treelike_of_ascending (h : ∀ i < t.size, (t.children i).Nodup ∧
    ∀ c ∈ t.children i, i < c ∧ c < t.size ∧ (t.node c).parent = some i) : t.Treelike where
  ranked := by
    have hascending : t.Ascending := by
      intro i c hc
      have hchild := (h i (lt_size_of_mem_children hc)).2 c hc
      exact ⟨hchild.1, hchild.2.1⟩
    exact ⟨_, hascending.ranked⟩
  parent_of_mem hc := ((h _ (lt_size_of_mem_children hc)).2 _ hc).2.2
  children_nodup i := by
    by_cases hi : i < t.size
    · exact (h i hi).1
    · rw [children, node_of_size_le (Nat.le_of_not_lt hi)]
      exact List.nodup_nil

/-- An extraction passes over the inner of two definitions if it is the body of the outer one. -/
theorem declarations_misplaced_doubleNamespace :
    doubleNamespace.Treelike ∧ doubleNamespace.kind root ≠ "namespace_definition" ∧
      doubleNamespace.InBodies isExtracted ∧
      ¬ List.Forall₂ doubleNamespace.DeclaredAt
        (doubleNamespace.preorder.filter doubleNamespace.isDeclared)
        doubleNamespace.declarations := by
  refine ⟨treelike_of_ascending (by decide +kernel), by decide +kernel, by decide +kernel, ?_⟩
  have hfound : doubleNamespace.preorder.filter doubleNamespace.isDeclared = [7] := by
    decide +kernel
  have hdeclared : doubleNamespace.declarations.map (·.namesp) = [some "A"] := by decide +kernel
  have hinner : doubleNamespace.InScope 7 (some "B") :=
    .passes (p := 6) (by decide) (by decide +kernel) (by decide +kernel)
      (.stops (p := 4) (by decide) (by decide +kernel) (by decide +kernel))
  intro h
  rw [hfound] at h
  obtain ⟨d, ds, hd, _, hall⟩ := List.forall₂_cons_left_iff.mp h
  rw [hall, List.map_cons] at hdeclared
  have hn := (hd.scope _).mp hinner
  rw [hn] at hdeclared
  simp at hdeclared

end Scaffold.SyntaxTree
