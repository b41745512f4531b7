import Scaffold.Proofs.Merge.Members
import Scaffold.Proofs.Plan.Names

namespace Scaffold
set_option autoImplicit true

/-- The methods that stubs of some names add behind methods whose names are `seen` up to ASCII
case: one for each name that is not blank and new. -/
def newStubs (seen : List String) : List String → List Method
  | [] => []
  | n :: ns =>
    if Text.trim n = "" ∨ Text.asciiLower (Text.trim n) ∈ seen then newStubs seen ns
    else ⟨Text.trim n, .isPublic, false, false⟩ ::
      newStubs (Text.asciiLower (Text.trim n) :: seen) ns

namespace Declaration

/-- The declaration in another namespace, if it stands in one. -/
def rebased (d : Declaration) (namesp : String) : Declaration :=
  { d with namesp := d.namesp.map fun _ => SyntaxTree.cleanNamespace namesp }

/-- The declaration under another name with stubs behind its methods. -/
def extended (d : Declaration) (className : String) (names : List String) : Declaration :=
  { d with
    name := Text.trim className
    methods := d.methods ++ newStubs (d.methods.map fun m => Text.asciiLower m.name) names }

end Declaration

namespace SyntaxTree

variable {t m : SyntaxTree} {u : ClassUpdate} {target name body close : Nat}
  {front ids : List Nat}

theorem firstOfName_stubs (seen names : List String) :
    firstOfName seen (names.filterMap stubMethod?) = newStubs seen names := by
  induction names generalizing seen with
  | nil => rfl
  | cons n names ih =>
    rw [newStubs]
    by_cases hn : Text.trim n = ""
    · have hnone : stubMethod? n = none := if_pos (by simpa using hn)
      rw [List.filterMap_cons_none hnone, if_pos (.inl hn)]
      exact ih seen
    · have hsome : stubMethod? n = some ⟨Text.trim n, .isPublic, false, false⟩ :=
        if_neg (by simpa using hn)
      rw [List.filterMap_cons_some hsome]
      by_cases hs : Text.asciiLower (Text.trim n) ∈ seen
      · have hkey : methodKey ⟨Text.trim n, .isPublic, false, false⟩ ∈ seen := hs
        rw [if_pos (.inr hs), firstOfName_cons_of_mem hkey]
        exact ih seen
      · have hkey : methodKey ⟨Text.trim n, .isPublic, false, false⟩ ∉ seen := hs
        have hnew : ¬(Text.trim n = "" ∨ Text.asciiLower (Text.trim n) ∈ seen) :=
          not_or.mpr ⟨hn, hs⟩
        rw [if_neg hnew, firstOfName_cons_of_not_mem hkey, ih]
        rfl

/-- What the grammar says about traits. -/
structure TraitShaped (t : SyntaxTree) : Prop where
  trait_body : ∀ i ∈ t.preorder, t.kind i = "trait_declaration" →
    ∀ b ∈ t.childByField i "body", t.kind b = "declaration_list"
  plain_name : ∀ i ∈ t.preorder, t.isDeclaration i → ∀ n ∈ t.childByField i "name",
    ∀ x ∈ t.preorderFrom n, t.kind x ≠ "trait_declaration"

theorem located_eq_filterMap (t : SyntaxTree) :
    t.located = (t.sites.filter fun s => isExtracted (t.kind s.1)).filterMap fun s =>
      (t.declaration? s.2 s.1).map fun d => (s.1, d) := by
  rw [located, List.filterMap_filter]
  congr 1
  funext s
  cases h : isExtracted (t.kind s.1) with
  | true => rfl
  | false =>
    rw [declaration?_eq_none h]
    rfl

theorem body_of_isExtracted (hs : PhpShaped t) (ht : TraitShaped t) (hi : i ∈ t.preorder)
    (hk : isExtracted (t.kind i) = true) (hb : t.childByField i "body" = some b) :
    t.kind b = "declaration_list" := by
  rcases isExtracted_iff.mp hk with hk | hk
  · have hbody := hs.class_body i hi hk
    rw [hb, Option.any_some, isClassBody] at hbody
    simp only [Bool.and_eq_true, beq_iff_eq] at hbody
    exact hbody.1.1.1
  · exact ht.trait_body i hi hk b hb

theorem not_isExtracted_of_name (hp : Preordered t) (hs : PhpShaped t) (ht : TraitShaped t)
    (hd : t.isDeclaration d = true) (hn : t.childByField d "name" = some n)
    (hx : x ∈ t.preorderFrom n) : isExtracted (t.kind x) = false := by
  have hplain := hs.plain_below_name hp hd hn hx
  rw [isDeclaration, Bool.or_eq_false_iff, beq_eq_false_iff_ne, beq_eq_false_iff_ne] at hplain
  rw [Bool.eq_false_iff]
  intro hk
  rcases isExtracted_iff.mp hk with hk | hk
  · exact hplain.2 hk
  · have hlt := lt_size_of_mem_children (mem_children_of_childByField hn)
    exact ht.plain_name d (hp.mem_preorder.mpr hlt) hd n hn x hx hk

namespace Updated

theorem node_of_isExtracted (h : Updated t m u name body front close ids)
    (hc : ClassAt t target name body front close) (hp : Preordered t) (hs : PhpShaped t)
    (ht : TraitShaped t) (hi : i < t.size) (hk : isExtracted (t.kind i) = true) :
    m.node i = t.node i := by
  refine h.node_of_unnamed hc hi ?_ ?_
  · intro d hd hn
    have hf := not_isExtracted_of_name hp hs ht hd hn (t.mem_preorderFrom_self i)
    rw [hk] at hf
    cases hf
  · rintro rfl
    rw [hc.body_kind] at hk
    cases hk

theorem methods_of_ne (h : Updated t m u name body front close ids)
    (hc : ClassAt t target name body front close) (ht : Tiled t)
    (hi : t.kind i ≠ "namespace_definition") (hne : i ≠ target) (hb : b ∈ t.children i)
    (hk : t.kind b = "declaration_list") : m.methods b = t.methods b := by
  have hp := ht.toPreordered
  have hbt : b ≠ target := by
    rintro rfl
    rw [hc.kind_eq] at hk
    simp at hk
  have hmem : ∀ c ∈ t.children b, m.node c = t.node c :=
    fun c hm => h.node_of_mem_children hc hp (by simp [hk]) hbt hm
  have hcs : m.childrenOfKind b "method_declaration" = t.childrenOfKind b "method_declaration" := by
    rw [childrenOfKind, childrenOfKind, children, children,
      h.node_of_mem_children hc hp hi hne hb]
    apply List.filter_congr
    intro c hm
    rw [kind, kind, hmem c hm]
  rw [SyntaxTree.methods, SyntaxTree.methods, hcs]
  congr 1
  apply List.filterMap_congr
  intro c hm
  obtain ⟨hm, hck⟩ := List.mem_filter.mp hm
  rw [beq_iff_eq] at hck
  have hct : c ≠ target := by
    rintro rfl
    rw [hc.kind_eq] at hck
    simp at hck
  have hsame : SameBelow t m c := by
    apply h.sameBelow hc ht (by simp [hck]) hct
    rw [children, children, hmem c hm]
  exact hsame.method?_eq

theorem declaration?_of_ne (h : Updated t m u name body front close ids)
    (hc : ClassAt t target name body front close) (ht : Tiled t) (hs : PhpShaped t)
    (htr : TraitShaped t) (hi : i < t.size) (hk : isExtracted (t.kind i) = true)
    (hne : i ≠ target) (n : Option String) :
    m.declaration? (renamed u.namesp n) i = (t.declaration? n i).map (·.rebased u.namesp) := by
  have hp := ht.toPreordered
  have hnode := h.node_of_isExtracted hc hp hs htr hi hk
  have hns : t.kind i ≠ "namespace_definition" := by
    intro he
    rw [he] at hk
    cases hk
  have hsame : SameBelow t m i := h.sameBelow hc ht hns hne (by rw [children, children, hnode])
  have hmethods : (m.childByField i "body").map m.methods =
      (t.childByField i "body").map t.methods := by
    rw [hsame.childByField_eq]
    cases hb : t.childByField i "body" with
    | none => rw [Option.map_none, Option.map_none]
    | some b =>
      have hbk := body_of_isExtracted hs htr (hp.mem_preorder.mpr hi) hk hb
      rw [Option.map_some, Option.map_some,
        h.methods_of_ne hc ht hns hne (mem_children_of_childByField hb) hbk]
  rw [declaration?, declaration?, h.kind_eq hi, hsame.declaredName_eq, hmethods, hnode]
  cases declarationKind? (t.kind i) with
  | none => rfl
  | some k => cases t.declaredName i <;> rfl

theorem declaration?_target (h : Updated t m u name body front close ids)
    (hc : ClassAt t target name body front close) (ht : Tiled t) (hs : PhpShaped t)
    (htr : TraitShaped t) (hname : (t.declaredName target).isSome)
    (hn : Text.trim u.className ≠ "") (n : Option String) :
    m.declaration? (renamed u.namesp n) target =
      (t.declaration? n target).map fun d =>
        (d.rebased u.namesp).extended u.className u.methods := by
  have hp := ht.toPreordered
  have hk : m.kind target = "class_declaration" := by
    rw [h.kind_eq hc.target_lt, hc.kind_eq]
  have hnew : m.declaredName target = some (Text.trim u.className) := by
    rw [h.declaredName_target hc hp hs, if_neg (by simpa using hn)]
  have hnode : m.node target = t.node target :=
    h.node_of_isExtracted hc hp hs htr hc.target_lt (isExtracted_iff.mpr (.inl hc.kind_eq))
  have hmethods : m.methods body = t.methods body ++
      newStubs ((t.methods body).map methodKey) u.methods := by
    rw [h.methods_eq hc ht, firstOfName_append, firstOfName_stubs, List.append_nil]
    rfl
  obtain ⟨old, hold⟩ := Option.isSome_iff_exists.mp hname
  rw [declaration?_of_class hk hnew, declaration?_of_class hc.kind_eq hold,
    h.childByField_body hc hp hs, hc.body_eq, hnode, Option.map_some, Option.map_some,
    Option.map_some, Option.getD_some, Option.getD_some, hmethods]
  rfl

/-- The entries of an updated tree are those of the tree, with other namespaces throughout and a
new name and more methods at the target. -/
theorem located_eq (h : Updated t m u name body front close ids)
    (hc : ClassAt t target name body front close) (ht : Tiled t) (hs : PhpShaped t)
    (htr : TraitShaped t) (hname : (t.declaredName target).isSome)
    (hn : Text.trim u.className ≠ "") :
    m.located = t.located.map fun e => (e.1, if e.1 = target then
      (e.2.rebased u.namesp).extended u.className u.methods else e.2.rebased u.namesp) := by
  have hp := ht.toPreordered
  have hsites : (m.sites.filter fun s => isExtracted (m.kind s.1)) =
      (t.sites.filter fun s => isExtracted (t.kind s.1)).map (rebase u.namesp) := by
    refine h.rebased (k := isExtracted) hc hp hs ?_ (by decide) root ht.root_lt_size none
    intro d hd n hn x hx
    exact not_isExtracted_of_name hp hs htr hd hn hx
  rw [located_eq_filterMap, located_eq_filterMap, hsites, List.filterMap_map, List.map_filterMap]
  apply List.filterMap_congr
  intro s hm
  obtain ⟨hm, hk⟩ := List.mem_filter.mp hm
  have hlt : s.1 < t.size :=
    hp.mem_preorder.mp (mem_preorderFrom_of_mem_sites hp.ascending.ranked root none s hm)
  rw [Function.comp_apply, Option.map_map, rebase]
  by_cases he : s.1 = target
  · rw [he, h.declaration?_target hc ht hs htr hname hn, Option.map_map]
    congr 1
    funext d
    simp only [Function.comp_apply, if_true]
  · rw [h.declaration?_of_ne hc ht hs htr hlt hk he, Option.map_map]
    congr 1
    funext d
    simp only [Function.comp_apply, he, if_false]

end Updated

theorem classes_nodup (hp : Preordered t) : t.classes.Nodup := by
  apply List.Nodup.filter
  rw [hp.preorder_eq]
  exact List.nodup_range

theorem Scoped.count_located (h : Scoped t) (hp : Preordered t) (hi : i ∈ t.classes) :
    (t.located.map Prod.fst).count i = 1 := by
  have hclasses : (t.located.filter (·.2.kind == .isClass)).map Prod.fst = t.classes := by
    rw [filter_located, ← h.map_classSites hp, List.map_filterMap]
    rw [← List.filterMap_eq_map]
    apply List.filterMap_congr
    intro s hs
    have hm : s.1 ∈ t.classes := by
      rw [← h.map_classSites hp]
      exact List.mem_map_of_mem hs
    obtain ⟨d, hd, _⟩ := exists_declaration_of_classSite hs (h.named_of_mem_classes hm)
    rw [hd]
    rfl
  have hkind : ∀ e ∈ t.located, e.1 = i → (e.2.kind == .isClass) = true := by
    rintro ⟨j, d⟩ he rfl
    obtain ⟨s, _, hs⟩ := List.mem_filterMap.mp he
    obtain ⟨d', hd, hj⟩ := Option.map_eq_some_iff.mp hs
    obtain ⟨rfl, rfl⟩ := Prod.mk.inj hj
    obtain ⟨_, hk⟩ := declaration?_eq_some hd
    have hclass : t.kind s.1 = "class_declaration" := beq_iff_eq.mp (List.mem_filter.mp hi).2
    rw [declarationKind?_eq_isClass_iff.mpr hclass] at hk
    rw [← Option.some.inj hk]
    rfl
  have hcount : (t.located.map Prod.fst).count i = t.classes.count i := by
    rw [← hclasses, List.count_eq_countP, List.count_eq_countP, List.countP_map, List.countP_map,
      List.countP_filter]
    apply List.countP_congr
    intro e he
    constructor
    · intro hei
      rw [hei, hkind e he (beq_iff_eq.mp hei)]
      rfl
    · intro hb
      exact (Bool.and_eq_true_iff.mp hb).1
  rw [hcount, List.count_eq_one_of_mem (classes_nodup hp) hi]

/-- Extraction commutes with merging: the merged tree declares what the tree declared, in the same
order and of the same kinds and ranges. A namespace is set anew where there was one, and nothing
else changes but the one entry of the target, which has its new name and the new stubs behind its
methods. -/
theorem declarations_of_merge (origin source namesp className : String) (methods : List String)
    (c : Concrete) (hw : c.WellFormed source) (hs : (c.lower origin source).PhpShaped)
    (htr : (c.lower origin source).TraitShaped) (hsc : (c.lower origin source).Scoped)
    (hc : (c.lower origin source).hasClass = true) (hn : Text.trim className ≠ "") :
    ∃ target m, (c.lower origin source).targetClass className = some target ∧
      (c.lower origin source).merge namesp className methods = .ok m ∧
      ((c.lower origin source).located.map Prod.fst).count target = 1 ∧
      (c.lower origin source).declarations = (c.lower origin source).located.map Prod.snd ∧
      m.declarations = (c.lower origin source).located.map fun e =>
        if e.1 = target then (e.2.rebased namesp).extended className methods
        else e.2.rebased namesp := by
  have ht := c.lower_tiled origin hw
  generalize c.lower origin source = t at ht hs htr hsc hc ⊢
  have hp := ht.toPreordered
  obtain ⟨target, m, name, body, front, close, ids, htarget, hm, hclass, hu⟩ :=
    hs.exists_updated hp hc namesp className methods
  have hmem := mem_classes_of_targetClass htarget
  have hlocated := hu.located_eq hclass ht hs htr (hsc.named_of_mem_classes hmem) hn
  refine ⟨target, m, htarget, hm, hsc.count_located hp hmem, t.map_snd_located.symm, ?_⟩
  rw [← m.map_snd_located, hlocated, List.map_map]
  rfl

theorem declarations_of_merge_scattered :
    scattered.WellFormed scatteredSource ∧
      ∃ m, (scattered.lower "C.php" scatteredSource).merge " \\ X\\Y" "C"
          ["test_a", " ", " Test_A", "test_b"] = .ok m ∧
        m.declarations =
          [⟨"B", some "X\\Y", .isClass, [], some ⟨14, 24⟩⟩,
            ⟨"T", some "X\\Y", .isTrait, [], some ⟨25, 35⟩⟩,
            ⟨"C", none, .isClass,
              [⟨"test_a", .isPublic, false, false⟩, ⟨"test_b", .isPublic, false, false⟩],
              some ⟨38, 48⟩⟩] := by
  have hw : scattered.WellFormed scatteredSource := by decide
  obtain ⟨target, m, ht, hm, _, _, hd⟩ :=
    declarations_of_merge "C.php" scatteredSource " \\ X\\Y" "C"
      ["test_a", " ", " Test_A", "test_b"] scattered hw
      ⟨by decide +kernel, by decide +kernel, by decide +kernel⟩
      ⟨by decide +kernel, by decide +kernel⟩ ⟨by decide +kernel, by decide +kernel⟩
      (by decide +kernel) (by decide +kernel)
  have htarget : (scattered.lower "C.php" scatteredSource).targetClass "C" = some 19 := by
    decide +kernel
  obtain rfl : target = 19 := Option.some.inj (ht.symm.trans htarget)
  refine ⟨hw, m, hm, ?_⟩
  rw [hd]
  decide +kernel

end SyntaxTree

end Scaffold
