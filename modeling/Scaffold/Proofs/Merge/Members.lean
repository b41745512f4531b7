import Scaffold.Proofs.Merge.Extraction
import Scaffold.Proofs.Tree.Tiling

namespace Scaffold.SyntaxTree
set_option autoImplicit true

variable {t m : SyntaxTree} {u : ClassUpdate} {target name body close : Nat}
  {front ids : List Nat}

structure SameBelow (t m : SyntaxTree) (i : Nat) : Prop where
  source_eq : m.source = t.source
  children_eq : m.children i = t.children i
  node_eq : ∀ c ∈ t.children i, m.node c = t.node c
  span : ∀ c ∈ t.children i, (t.node c).span ≠ none

theorem SameBelow.text_eq (h : SameBelow t m i) (hc : c ∈ t.children i) : m.text c = t.text c :=
  text_of_span (h.node_eq c hc) h.source_eq (h.span c hc)

theorem SameBelow.childByField_eq (h : SameBelow t m i) (f : String) :
    m.childByField i f = t.childByField i f := by
  rw [childByField, childByField, h.children_eq]
  apply List.find?_congr
  intro c hc
  rw [h.node_eq c hc]

theorem SameBelow.declaredName_eq (h : SameBelow t m i) : m.declaredName i = t.declaredName i := by
  rw [declaredName, declaredName, h.childByField_eq]
  apply Option.bind_congr
  intro c hc
  rw [h.text_eq (mem_children_of_childByField hc)]

theorem SameBelow.any_kind_eq (h : SameBelow t m i) (k : String) :
    ((m.children i).any fun c => m.kind c == k) = (t.children i).any fun c => t.kind c == k := by
  rw [h.children_eq, Bool.eq_iff_iff, List.any_eq_true, List.any_eq_true]
  refine exists_congr fun c => and_congr_right fun hc => ?_
  rw [kind, kind, h.node_eq c hc]

theorem SameBelow.methodVisibility_eq (h : SameBelow t m i) :
    m.methodVisibility i = t.methodVisibility i := by
  have hcs : m.childrenOfKind i "visibility_modifier" =
      t.childrenOfKind i "visibility_modifier" := by
    rw [childrenOfKind, childrenOfKind, h.children_eq]
    apply List.filter_congr
    intro c hc
    rw [kind, kind, h.node_eq c hc]
  rw [methodVisibility, methodVisibility, hcs]
  cases hl : (t.childrenOfKind i "visibility_modifier").getLast? with
  | none => rfl
  | some c =>
    have hc : c ∈ t.children i := List.mem_of_mem_filter (List.mem_of_getLast? hl)
    simp only [h.text_eq hc]

theorem SameBelow.method?_eq (h : SameBelow t m i) : m.method? i = t.method? i := by
  rw [method?, method?, h.declaredName_eq, h.methodVisibility_eq, h.any_kind_eq, h.any_kind_eq]

def stubMethod? (n : String) : Option Method :=
  if (Text.trim n).isEmpty then none else some ⟨Text.trim n, .isPublic, false, false⟩

theorem StubAt.childByField_name (h : StubAt t body a n) :
    t.childByField a "name" = some (a + 3) := by
  obtain ⟨h₁, h₂, h₃, _, _⟩ := h.nodes
  simp [childByField, h.children_eq, h₁, h₂, h₃, SyntaxNode.leaf, SyntaxNode.withField,
    SyntaxNode.anonymous]

theorem StubAt.declaredName_eq (h : StubAt t body a n) :
    t.declaredName a = if (Text.trim n).isEmpty then none else some (Text.trim n) := by
  have htext : t.text (a + 3) = n := by
    apply text_of_replacement
    rw [h.nodes.2.2.1]
    rfl
  rw [declaredName_of_child h.childByField_name, htext]

theorem StubAt.method?_eq (h : StubAt t body a n) : t.method? a = stubMethod? n := by
  obtain ⟨h₁, h₂, h₃, h₄, h₅⟩ := h.nodes
  have hvis : t.childrenOfKind a "visibility_modifier" = [a + 1] := by
    simp [childrenOfKind, kind, h.children_eq, h₁, h₂, h₃, h₄, h₅, SyntaxNode.leaf,
      SyntaxNode.withField, SyntaxNode.anonymous]
  have htext : t.text (a + 1) = "public" := by
    apply text_of_replacement
    rw [h₁]
    rfl
  have hpublic : visibilityOf "public" = .isPublic := by decide
  have habstract : ((t.children a).any fun c => t.kind c == "abstract_modifier") = false := by
    simp [kind, h.children_eq, h₁, h₂, h₃, h₄, h₅, SyntaxNode.leaf, SyntaxNode.withField,
      SyntaxNode.anonymous]
  have hstatic : ((t.children a).any fun c => t.kind c == "static_modifier") = false := by
    simp [kind, h.children_eq, h₁, h₂, h₃, h₄, h₅, SyntaxNode.leaf, SyntaxNode.withField,
      SyntaxNode.anonymous]
  rw [method?, h.declaredName_eq, methodVisibility, hvis, List.getLast?_singleton, habstract,
    hstatic, stubMethod?]
  simp only [htext, hpublic]
  split <;> rfl

theorem filterMap_stubs {g : Nat → Option β} {r : String → Option β}
    (h : List.Forall₂ (t.StubAt body) ids names)
    (hnew : ∀ a n, t.StubAt body a n → g a = r n) :
    (ids.filter fun c => t.kind c == "method_declaration").filterMap g = names.filterMap r := by
  induction h with
  | nil => rfl
  | @cons a n ids names hstub _ ih =>
    have hk : t.kind a = "method_declaration" := by
      rw [kind, hstub.head]
      rfl
    rw [List.filter_cons, if_pos (beq_iff_eq.mpr hk), List.filterMap_cons, List.filterMap_cons,
      hnew a n hstub, ih]

namespace Updated

theorem sameBelow (h : Updated t m u name body front close ids)
    (hc : ClassAt t target name body front close) (ht : Tiled t)
    (hk : t.kind i ≠ "namespace_definition") (hi : i ≠ target)
    (hcs : m.children i = t.children i) : SameBelow t m i where
  source_eq := h.source_eq
  children_eq := hcs
  node_eq _ hm := h.node_of_mem_children hc ht.toPreordered hk hi hm
  span _ hm := ht.child_span hm

theorem declaredName_of_ne (h : Updated t m u name body front close ids)
    (hc : ClassAt t target name body front close) (ht : Tiled t) (hs : PhpShaped t)
    (hi : i ∈ t.classes) (hne : i ≠ target) : m.declaredName i = t.declaredName i := by
  obtain ⟨hm, hk⟩ := List.mem_filter.mp hi
  rw [beq_iff_eq] at hk
  have hcs := h.children_declaration hc ht.toPreordered hs (ht.mem_preorder.mp hm)
    (isDeclaration_of_class hk)
  exact (h.sameBelow hc ht (by simp [hk]) hne hcs).declaredName_eq

theorem declaredName_target (h : Updated t m u name body front close ids)
    (hc : ClassAt t target name body front close) (hp : Preordered t) (hs : PhpShaped t) :
    m.declaredName target =
      if (Text.trim u.className).isEmpty then none else some (Text.trim u.className) := by
  have hcs := h.children_declaration hc hp hs hc.target_lt hc.declares
  have hname : m.childByField target "name" = some name := by
    rw [h.childByField_of_children hp hcs, hc.name_eq]
  have htext : m.text name = u.className := by
    apply text_of_replacement
    rw [h.name_eq]
    rfl
  rw [declaredName_of_child hname, htext]

theorem childByField_body (h : Updated t m u name body front close ids)
    (hc : ClassAt t target name body front close) (hp : Preordered t) (hs : PhpShaped t) :
    m.childByField target "body" = some body := by
  have hcs := h.children_declaration hc hp hs hc.target_lt hc.declares
  rw [h.childByField_of_children hp hcs, hc.body_eq]

theorem filterMap_members {f g : Nat → Option β} {r : String → Option β}
    (h : Updated t m u name body front close ids)
    (hc : ClassAt t target name body front close) (hp : Preordered t)
    (hold : ∀ c ∈ t.children body, t.kind c = "method_declaration" → g c = f c)
    (hnew : ∀ a n, m.StubAt body a n → g a = r n) :
    (m.childrenOfKind body "method_declaration").filterMap g =
      (t.childrenOfKind body "method_declaration").filterMap f ++ u.methods.filterMap r := by
  have hkind : ∀ c ∈ t.children body, m.kind c = t.kind c :=
    fun c hm => h.kind_eq (hp.ascending body c hm).2
  have hmem : ∀ c ∈ front, c ∈ t.children body := by
    intro c hm
    rw [hc.children_eq]
    exact List.mem_append_left _ hm
  have hfront : (front.filter fun c => m.kind c == "method_declaration").filterMap g =
      (front.filter fun c => t.kind c == "method_declaration").filterMap f := by
    rw [List.filter_congr fun c hm => by rw [hkind c (hmem c hm)]]
    apply List.filterMap_congr
    intro c hm
    obtain ⟨hm, hk⟩ := List.mem_filter.mp hm
    exact hold c (hmem c hm) (beq_iff_eq.mp hk)
  have hids : (ids.filter fun c => m.kind c == "method_declaration").filterMap g =
      u.methods.filterMap r := filterMap_stubs h.stubs hnew
  have hclose : t.kind close ≠ "method_declaration" := by simp [hc.close_kind]
  have hclose' : m.kind close ≠ "method_declaration" := by rwa [hkind close hc.close_mem]
  have hcs : m.children body = front ++ ids ++ [close] := by rw [children, h.body_eq]
  rw [childrenOfKind, childrenOfKind, hcs, hc.children_eq]
  simp only [List.filter_append, List.filterMap_append, hfront, hids]
  simp [hclose, hclose']

theorem sameBelow_member (h : Updated t m u name body front close ids)
    (hc : ClassAt t target name body front close) (ht : Tiled t) (hm : c ∈ t.children body)
    (hk : t.kind c = "method_declaration") : SameBelow t m c := by
  have hne : c ≠ target := by
    rintro rfl
    rw [hc.kind_eq] at hk
    simp at hk
  refine h.sameBelow hc ht (by simp [hk]) hne ?_
  rw [children, h.node_of_mem_body hc ht.toPreordered hm]
  rfl

/-- The target's methods are those it had, then the stubs, but no two of one name. -/
theorem methods_eq (h : Updated t m u name body front close ids)
    (hc : ClassAt t target name body front close) (ht : Tiled t) :
    m.methods body = firstOfName []
      ((t.childrenOfKind body "method_declaration").filterMap t.method? ++
        u.methods.filterMap stubMethod?) := by
  rw [SyntaxTree.methods]
  congr 1
  apply h.filterMap_members hc ht.toPreordered
  · intro c hm hk
    exact (h.sameBelow_member hc ht hm hk).method?_eq
  · intro a n hstub
    exact hstub.method?_eq

end Updated

theorem trim_of_declaredName (h : t.declaredName i = some n) : Text.trim n = n := by
  obtain ⟨c, _, h⟩ := Option.bind_eq_some_iff.mp h
  simp only at h
  split at h
  · cases h
  · obtain rfl := Option.some.inj h
    exact Text.trim_trim _

theorem choose_of_change {l : List α} (h : choose p l = some a)
    (hq : ∀ b ∈ l, b ≠ a → q b = p b) (ha : q a = true) : choose q l = some a := by
  rw [choose] at h ⊢
  rcases Option.or_eq_some_iff.mp h with h | ⟨_, h⟩
  · obtain ⟨hp, l₁, l₂, rfl, hl⟩ := List.find?_eq_some_iff_append.mp h
    have hfind : (l₁ ++ a :: l₂).find? q = some a := by
      refine List.find?_eq_some_iff_append.mpr ⟨ha, l₁, l₂, rfl, ?_⟩
      intro b hb
      have hne : b ≠ a := by
        rintro rfl
        have := hl b hb
        simp [hp] at this
      rw [hq b (by simp [hb]) hne]
      exact hl b hb
    rw [hfind]
    rfl
  · obtain ⟨l', rfl⟩ := List.head?_eq_some_iff.mp h
    rw [List.find?_cons, ha]
    rfl

theorem Updated.choose_target (h : Updated t m u name body front close ids)
    (hc : ClassAt t target name body front close) (ht : Tiled t) (hs : PhpShaped t)
    (hsc : Scoped t) (htarget : t.targetClass u.className = some target)
    (hn : Text.trim u.className ≠ "") :
    choose (fun i => m.declaredName i == some u.className) t.classes = some target := by
  rw [hsc.targetClass_eq_choose] at htarget
  have hname : m.declaredName target = some (Text.trim u.className) := by
    rw [h.declaredName_target hc ht.toPreordered hs, if_neg (by simpa using hn)]
  by_cases htrim : Text.trim u.className = u.className
  · refine choose_of_change htarget ?_ (by simp [hname, htrim])
    intro i hi hne
    rw [h.declaredName_of_ne hc ht hs hi hne]
  · -- No class can have a name with blanks around it.
    have hno : ∀ {v : SyntaxTree} {i}, (v.declaredName i == some u.className) = false := by
      intro v i
      rw [beq_eq_false_iff_ne]
      exact fun he => htrim (trim_of_declaredName he)
    simp only [hno] at htarget ⊢
    exact htarget

theorem Updated.map_classSites (h : Updated t m u name body front close ids)
    (hc : ClassAt t target name body front close) (hp : Preordered t) (hs : PhpShaped t)
    (hsc : Scoped t) (hr : root < t.size) : m.classSites.map Prod.fst = t.classes := by
  have hreb := h.rebased (k := fun x => x == "class_declaration") hc hp hs ?_ (by decide) root hr
    none
  · rw [← hsc.map_classSites hp]
    change (m.sites.filter fun s => m.kind s.1 == "class_declaration") = _ at hreb
    rw [classSites, hreb, List.map_map]
    rfl
  · intro d hd n hn x hx
    have hplain := hs.plain_below_name hp hd hn hx
    rw [isDeclaration, Bool.or_eq_false_iff] at hplain
    exact hplain.2

theorem ClassAt.exists_testClass? (hc : ClassAt t target name body front close)
    (hp : Preordered t) (hsc : Scoped t) (htarget : t.targetClass className = some target) :
    ∃ d, t.testClass? className = some d ∧ d.methods = t.methods body := by
  obtain ⟨n, hd⟩ := hsc.exists_testClass?_of_targetClass hp htarget
  obtain ⟨x, hname⟩ := Option.isSome_iff_exists.mp
    (hsc.class_named target (hp.mem_preorder.mpr hc.target_lt) hc.kind_eq)
  rw [declaration?_of_class hc.kind_eq hname, hc.body_eq] at hd
  exact ⟨_, hd, rfl⟩

/-- A plan against the updated tree reads the target. -/
theorem Updated.exists_testClass? (h : Updated t m u name body front close ids)
    (hc : ClassAt t target name body front close) (ht : Tiled t) (hs : PhpShaped t)
    (hsc : Scoped t) (htarget : t.targetClass u.className = some target)
    (hn : Text.trim u.className ≠ "") :
    ∃ d, m.testClass? u.className = some d ∧ d.methods = m.methods body := by
  have hp := ht.toPreordered
  have hname : m.declaredName target = some (Text.trim u.className) := by
    rw [h.declaredName_target hc hp hs, if_neg (by simpa using hn)]
  have hnamed : ∀ i ∈ t.classes, (m.declaredName i).isSome := by
    intro i hi
    by_cases he : i = target
    · rw [he, hname]
      rfl
    · rw [h.declaredName_of_ne hc ht hs hi he]
      exact hsc.named_of_mem_classes hi
  obtain ⟨n, hd⟩ := SyntaxTree.exists_testClass? (h.map_classSites hc hp hs hsc ht.root_lt_size)
    hnamed (h.choose_target hc ht hs hsc htarget hn)
  have hk : m.kind target = "class_declaration" := by
    rw [h.kind_eq hc.target_lt, hc.kind_eq]
  rw [declaration?_of_class hk hname, h.childByField_body hc hp hs] at hd
  exact ⟨_, hd, rfl⟩

end Scaffold.SyntaxTree
