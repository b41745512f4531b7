import Scaffold.Proofs.Merge.Likeness
import Scaffold.Proofs.Merge.Members
import Scaffold.Proofs.Tree.Piecing

namespace Scaffold
set_option autoImplicit true

namespace SyntaxTree

variable {t s m : SyntaxTree} {u : ClassUpdate} {target : Nat}

def ClassUpdate.edit? (u : ClassUpdate) (target : Nat) (t : SyntaxTree) (i : Nat) :
    Option (Nat × String) :=
  if t.kind i = "namespace_definition" then (t.childByField i "name").map (·, u.namesp)
  else if i = target then (t.childByField i "name").map (·, u.className)
  else none

def ClassUpdate.edits (u : ClassUpdate) (target : Nat) (t : SyntaxTree) : List (Nat × String) :=
  (t.declaredFrom root).filterMap (u.edit? target t)

theorem rename_eq_replaceAll (t : SyntaxTree) (i : Nat) (x : String) :
    t.rename i x = t.replaceAll ((t.childByField i "name").map (·, x)).toList := by
  rw [rename]
  cases t.childByField i "name" <;> rfl

theorem visit_eq_replaceAll (h : x ≠ target) (u : ClassUpdate) (s : SyntaxTree) :
    u.visit target s x = s.replaceAll (u.edit? target s x).toList := by
  rw [visit_of_ne h, ClassUpdate.edit?, if_neg h]
  split
  · exact rename_eq_replaceAll ..
  · rfl

theorem visit_target (hk : s.kind target = "class_declaration") (u : ClassUpdate) :
    u.visit target s target =
      (s.replaceAll (u.edit? target s target).toList).addStubs
        ((s.replaceAll (u.edit? target s target).toList).childByField target "body")
        u.methods := by
  have hns : s.kind target ≠ "namespace_definition" := by simp [hk]
  simp only [ClassUpdate.edit?, ClassUpdate.visit, beq_iff_eq, hns, if_false, if_true,
    ← rename_eq_replaceAll]
  generalize (s.rename target u.className).childByField target "body" = body?
  cases body? <;> rfl

theorem edit?_eq_some (hk : t.kind target = "class_declaration")
    (h : u.edit? target t x = some e) :
    t.isDeclaration x = true ∧ t.childByField x "name" = some e.1 := by
  have hname : ∀ y, (t.childByField x "name").map (·, y) = some e →
      t.childByField x "name" = some e.1 := by
    intro y h
    obtain ⟨c, hc, rfl⟩ := Option.map_eq_some_iff.mp h
    exact hc
  rw [ClassUpdate.edit?] at h
  split at h
  · rename_i hns
    exact ⟨isDeclaration_of_namespace hns, hname _ h⟩
  · split at h
    · rename_i he
      exact ⟨isDeclaration_of_class (he ▸ hk), hname _ h⟩
    · cases h

theorem Alike.edit?_eq (h : Alike t s) (hk : t.kind target = "class_declaration")
    (hx : x < t.size) (u : ClassUpdate) : u.edit? target s x = u.edit? target t x := by
  by_cases hd : t.isDeclaration x = true
  · rw [ClassUpdate.edit?, ClassUpdate.edit?, h.kind_eq x hx, h.childByField_eq x hx hd]
  · have hnone : ∀ y, y.kind target = "class_declaration" → y.isDeclaration x = false →
        u.edit? target y x = none := by
      intro y hy hf
      by_contra he
      obtain ⟨e, he⟩ := Option.ne_none_iff_exists'.mp he
      rw [(edit?_eq_some hy he).1] at hf
      cases hf
    have hf : t.isDeclaration x = false := by simpa using hd
    have htarget := lt_size_of_isDeclaration (isDeclaration_of_class hk)
    rw [hnone t hk hf, hnone s (by rw [h.kind_eq target htarget, hk])]
    rw [h.isDeclaration_eq hx, hf]

/-- A tree with a class to update, in which no declaration stands below the name of another. -/
structure Updatable (t : SyntaxTree) (target : Nat) : Prop where
  ascending : t.Ascending
  plain : ∀ i ∈ t.declaredFrom root, ∀ n ∈ t.childByField i "name", t.declaredFrom n = []
  kind_target : t.kind target = "class_declaration"
  count_target : (t.declaredFrom root).count target = 1

namespace Updatable

theorem alike_refl (h : Updatable t target) : Alike t t :=
  .refl h.ascending

theorem declares (h : Updatable t target) : t.isDeclaration target = true :=
  isDeclaration_of_class h.kind_target

theorem target_lt (h : Updatable t target) : target < t.size :=
  lt_size_of_isDeclaration h.declares

theorem root_lt (h : Updatable t target) : root < t.size :=
  Nat.lt_of_le_of_lt (Nat.zero_le _) h.target_lt

theorem lt_size (h : Updatable t target) (hx : x ∈ t.preorder) : x < t.size := by
  rcases h.ascending.ranked.exists_parent root x hx with rfl | ⟨y, _, hy⟩
  · exact h.root_lt
  · exact (h.ascending y x hy).2

theorem alike (h : Updatable t target) (hm : Alike t m) : Updatable m target where
  ascending := hm.ascending
  plain i hi n hn := by
    rw [hm.declared_eq root h.root_lt] at hi
    have hd := (mem_declaredFrom.mp hi).2
    have hlt := lt_size_of_isDeclaration hd
    rw [hm.childByField_eq i hlt hd] at hn
    rw [hm.declared_eq n (h.ascending i n (mem_children_of_childByField hn)).2]
    exact h.plain i hi n hn
  kind_target := by rw [hm.kind_eq target h.target_lt, h.kind_target]
  count_target := by rw [hm.declared_eq root h.root_lt, h.count_target]

theorem plainName_of_edit? (h : Updatable t target) (hx : x ∈ t.preorder)
    (he : u.edit? target t x = some e) : t.PlainName e.1 := by
  obtain ⟨hd, hn⟩ := edit?_eq_some h.kind_target he
  exact ⟨(h.ascending x e.1 (mem_children_of_childByField hn)).2, field_of_childByField hn,
    h.plain x (mem_declaredFrom.mpr ⟨hx, hd⟩) e.1 hn⟩

theorem foldl_visit {l : List Nat} (h : Updatable t target) (hs : Alike t s)
    (hl : ∀ x ∈ l, x ∈ t.preorder ∧ x ≠ target) (u : ClassUpdate) :
    l.foldl (u.visit target) s = s.replaceAll (l.filterMap (u.edit? target t)) := by
  induction l generalizing s with
  | nil => rfl
  | cons x l ih =>
    obtain ⟨hx, hne⟩ := hl x List.mem_cons_self
    have hvisit := visit_eq_replaceAll hne u s
    rw [hs.edit?_eq h.kind_target (h.lt_size hx)] at hvisit
    have hcons : (x :: l).filterMap (u.edit? target t) =
        (u.edit? target t x).toList ++ l.filterMap (u.edit? target t) := by
      rw [List.filterMap_cons]
      cases u.edit? target t x <;> rfl
    rw [List.foldl_cons, hvisit, hcons, replaceAll_append]
    apply ih
    · exact hs.replaceAll fun e he => h.plainName_of_edit? hx (Option.mem_toList.mp he)
    · exact fun y hy => hl y (List.mem_cons_of_mem _ hy)

theorem split_preorder (h : Updatable t target) :
    ∃ pre post, t.preorder = pre ++ target :: post ∧
      (∀ x ∈ pre, x ∈ t.preorder ∧ x ≠ target) ∧ ∀ x ∈ post, x ∈ t.preorder ∧ x ≠ target := by
  have hcount : t.preorder.count target = 1 := by
    rw [← h.count_target, declaredFrom, List.count_filter h.declares]
    rfl
  have hm : target ∈ t.preorder := List.count_pos_iff.mp (by omega)
  obtain ⟨pre, post, he⟩ := List.append_of_mem hm
  rw [he, List.count_append, List.count_cons_self] at hcount
  have hpre : pre.count target = 0 := by omega
  have hpost : post.count target = 0 := by omega
  rw [List.count_eq_zero] at hpre hpost
  refine ⟨pre, post, he, fun x hx => ⟨by simp [he, hx], ?_⟩, fun x hx => ⟨by simp [he, hx], ?_⟩⟩
  · rintro rfl
    exact hpre hx
  · rintro rfl
    exact hpost hx

theorem edits_eq (h : Updatable t target) (u : ClassUpdate) :
    u.edits target t = t.preorder.filterMap (u.edit? target t) := by
  rw [ClassUpdate.edits, declaredFrom, List.filterMap_filter]
  apply List.filterMap_congr
  intro x _
  split
  · rfl
  · rename_i hd
    by_contra he
    obtain ⟨e, he⟩ := Option.ne_none_iff_exists'.mp (Ne.symm he)
    exact hd (edit?_eq_some h.kind_target he).1

theorem plainName (h : Updatable t target) (he : e ∈ u.edits target t) : t.PlainName e.1 := by
  rw [h.edits_eq, List.mem_filterMap] at he
  obtain ⟨x, hx, he⟩ := he
  exact h.plainName_of_edit? hx he

theorem body_lt (h : Updatable t target) (hs : Alike t s) :
    ∀ body ∈ t.childByField target "body", body < s.size :=
  fun body hb => Nat.lt_of_lt_of_le
    (h.ascending target body (mem_children_of_childByField hb)).2 hs.size_le

theorem notMem_body (h : Updatable t target) (he : e ∈ u.edits target t) :
    e.1 ∉ t.childByField target "body" := by
  intro hb
  have hf := (h.plainName he).field_eq
  rw [field_of_childByField hb] at hf
  simp at hf

theorem alike_replaceAll (h : Updatable t target) (hes : edits ⊆ u.edits target t) :
    Alike t (t.replaceAll edits) :=
  h.alike_refl.replaceAll fun _ he => h.plainName (hes he)

theorem alike_edits (h : Updatable t target) (u : ClassUpdate) :
    Alike t (t.replaceAll (u.edits target t)) :=
  h.alike_replaceAll (List.Subset.refl _)

theorem addStubs_edits (h : Updatable t target) (hs : Alike t s)
    (hes : edits ⊆ u.edits target t) (names : List String) :
    (s.replaceAll edits).addStubs (t.childByField target "body") names =
      (s.addStubs (t.childByField target "body") names).replaceAll edits := by
  apply addStubs_replaceAll hs.ascending (h.body_lt hs)
  intro e he
  have hlt := Nat.lt_of_lt_of_le (h.plainName (hes he)).lt_size hs.size_le
  exact ⟨hlt, h.notMem_body (hes he)⟩

/-- An update replaces names and then adds stubs. -/
theorem update_eq (h : Updatable t target) (u : ClassUpdate) :
    t.update u target =
      (t.replaceAll (u.edits target t)).addStubs (t.childByField target "body") u.methods := by
  obtain ⟨pre, post, he, hpre, hpost⟩ := h.split_preorder
  let before := pre.filterMap (u.edit? target t) ++ (u.edit? target t target).toList
  let after := post.filterMap (u.edit? target t)
  have hedits : u.edits target t = before ++ after := by
    rw [h.edits_eq, he, List.filterMap_append, List.filterMap_cons, List.append_assoc]
    congr 1
    cases u.edit? target t target <;> rfl
  have hbefore : before ⊆ u.edits target t := hedits ▸ List.subset_append_left ..
  have hafter : after ⊆ u.edits target t := hedits ▸ List.subset_append_right ..
  have h₁ := h.alike_replaceAll (List.append_subset.mp hbefore).1
  have h₂ := h.alike_replaceAll hbefore
  have hvisit : u.visit target (t.replaceAll (pre.filterMap (u.edit? target t))) target =
      (t.replaceAll before).addStubs (t.childByField target "body") u.methods := by
    rw [visit_target (by rw [h₁.kind_eq target h.target_lt, h.kind_target]),
      h₁.edit?_eq h.kind_target h.target_lt, ← replaceAll_append,
      h₂.childByField_eq target h.target_lt h.declares]
  calc
    t.update u target = post.foldl (u.visit target)
        (u.visit target (pre.foldl (u.visit target) t) target) := by
      rw [update, visitAll, he, List.foldl_append, List.foldl_cons]
    _ = ((t.replaceAll before).addStubs (t.childByField target "body") u.methods).replaceAll
        after := by
      rw [h.foldl_visit h.alike_refl hpre, hvisit,
        h.foldl_visit (h₂.addStubs (h.body_lt h.alike_refl) u.methods) hpost]
    _ = (t.replaceAll (u.edits target t)).addStubs (t.childByField target "body") u.methods := by
      rw [← h.addStubs_edits h₂ hafter, hedits, replaceAll_append t before after]

theorem alike_update (h : Updatable t target) (u : ClassUpdate) : Alike t (t.update u target) := by
  rw [h.update_eq]
  exact (h.alike_edits u).addStubs (h.body_lt h.alike_refl) _

theorem edits_alike (h : Updatable t target) (hm : Alike t m) (u : ClassUpdate) :
    u.edits target m = u.edits target t := by
  rw [ClassUpdate.edits, ClassUpdate.edits, hm.declared_eq root h.root_lt]
  apply List.filterMap_congr
  intro x hx
  exact hm.edit?_eq h.kind_target (lt_size_of_isDeclaration (mem_declaredFrom.mp hx).2) u

theorem edits_unique (h : Updatable t target) (hp : Preordered t) (he : e ∈ u.edits target t)
    (he' : e' ∈ u.edits target t) (heq : e'.1 = e.1) : e'.2 = e.2 := by
  obtain ⟨x, _, hx⟩ := List.mem_filterMap.mp he
  obtain ⟨x', _, hx'⟩ := List.mem_filterMap.mp he'
  have hn := mem_children_of_childByField (edit?_eq_some h.kind_target hx).2
  have hn' := mem_children_of_childByField (edit?_eq_some h.kind_target hx').2
  rw [heq] at hn'
  obtain rfl := hp.parent_unique hn hn'
  rw [Option.some.inj (hx'.symm.trans hx)]

theorem replaceAll_edits (h : Updatable t target) (hp : Preordered t) (u : ClassUpdate) :
    (t.replaceAll (u.edits target t)).replaceAll (u.edits target t) =
      t.replaceAll (u.edits target t) := by
  apply replaceAll_replaceAll
  · exact fun e he => (h.plainName he).lt_size
  · exact fun e he e' he' => h.edits_unique hp he he'

/-- Two updates to the same names are one. -/
theorem update_update (h : Updatable t target) (hp : Preordered t) (namesp className : String)
    (a b : List String) :
    (t.update ⟨namesp, className, a⟩ target).update ⟨namesp, className, b⟩ target =
      t.update ⟨namesp, className, a ++ b⟩ target := by
  have hm := h.alike_update ⟨namesp, className, a⟩
  have hedits : ∀ names, ClassUpdate.edits ⟨namesp, className, names⟩ target t =
      ClassUpdate.edits ⟨namesp, className, a⟩ target t := fun _ => rfl
  have hagain := h.replaceAll_edits hp ⟨namesp, className, a⟩
  have hs := h.alike_edits ⟨namesp, className, a⟩
  rw [(h.alike hm).update_eq, h.edits_alike hm, hm.childByField_eq target h.target_lt h.declares,
    h.update_eq, h.update_eq, hedits b, hedits (a ++ b),
    ← h.addStubs_edits hs (List.Subset.refl _), hagain, addStubs_append]

theorem node_update (h : Updatable t target) (hi : i < t.size)
    (he : ∀ e ∈ u.edits target t, i ≠ e.1) (hb : i ∉ t.childByField target "body") :
    (t.update u target).node i = t.node i := by
  have hs := h.alike_edits u
  rw [h.update_eq, node_addStubs hs.ascending (Nat.lt_of_lt_of_le hi hs.size_le)
    (h.body_lt hs) hb, node_replaceAll_of_ne he]

theorem node_name_of_ne (h : Updatable t target) (hp : Preordered t)
    (hk : t.kind i = "class_declaration") (hne : i ≠ target)
    (hn : t.childByField i "name" = some n) : (t.update u target).node n = t.node n := by
  have hm := mem_children_of_childByField hn
  refine h.node_update (hp.ascending i n hm).2 ?_ ?_
  · rintro e he rfl
    obtain ⟨x, _, he⟩ := List.mem_filterMap.mp he
    have hx := mem_children_of_childByField (edit?_eq_some h.kind_target he).2
    obtain rfl := hp.parent_unique hm hx
    simp [ClassUpdate.edit?, hk, hne] at he
  · intro hb
    exact hne (hp.parent_unique hm (mem_children_of_childByField hb))

theorem node_name_target (h : Updatable t target) (hp : Preordered t)
    (hn : t.childByField target "name" = some n) :
    (t.update u target).node n = (t.node n).replaced u.className := by
  have hs := h.alike_edits u
  have hlt := (hp.ascending target n (mem_children_of_childByField hn)).2
  have he : (n, u.className) ∈ u.edits target t := by
    refine List.mem_filterMap.mpr ⟨target, ?_, ?_⟩
    · exact List.count_pos_iff.mp (by rw [h.count_target]; exact Nat.one_pos)
    · simp [ClassUpdate.edit?, h.kind_target, hn]
  rw [h.update_eq, node_addStubs hs.ascending (Nat.lt_of_lt_of_le hlt hs.size_le)
    (h.body_lt hs) (h.notMem_body he)]
  exact node_replaceAll_of_mem hlt he fun e' he' heq => h.edits_unique hp he he' heq

theorem altered_update (h : Updatable t target) (u : ClassUpdate) :
    t.Altered (t.update u target) := by
  have hs := h.alike_edits u
  have hreplaced : t.Altered (t.replaceAll (u.edits target t)) :=
    Altered.replaceAll .refl fun e he => (h.plainName he).lt_size
  rw [h.update_eq]
  exact hreplaced.addStubs hs.ascending hs.size_le (h.body_lt hs) _

theorem source_eq (h : Updatable t target) : (t.update u target).source = t.source :=
  ((h.altered_update u).survives h.ascending).source_eq

end Updatable

def isNamed (t : SyntaxTree) (className : String) (i : Nat) : Bool :=
  (t.childByField i "name").any fun c => Text.trim (t.text c) == className

theorem targetClass_eq_choose (t : SyntaxTree) (className : String) :
    t.targetClass className = choose (t.isNamed className) t.classes :=
  rfl

namespace Updatable

theorem childByField_class (h : Updatable t target) (hi : i ∈ t.classes) (f : String) :
    (t.update u target).childByField i f = t.childByField i f := by
  have hd := isDeclaration_of_class (beq_iff_eq.mp (List.mem_filter.mp hi).2)
  exact (h.alike_update u).childByField_eq i (lt_size_of_isDeclaration hd) hd f

theorem isNamed_of_ne (h : Updatable t target) (ht : Tiled t) (hi : i ∈ t.classes)
    (hne : i ≠ target) (className : String) :
    (t.update u target).isNamed className i = t.isNamed className i := by
  have hk := beq_iff_eq.mp (List.mem_filter.mp hi).2
  rw [isNamed, isNamed, h.childByField_class hi]
  cases hn : t.childByField i "name" with
  | none => rw [Option.any_none, Option.any_none]
  | some n =>
    rw [Option.any_some, Option.any_some, text_of_span
      (h.node_name_of_ne ht.toPreordered hk hne hn) h.source_eq
      (ht.child_span (mem_children_of_childByField hn))]

/-- A class that gets the name to look for keeps being the target. -/
theorem targetClass_update (h : Updatable t target) (ht : Tiled t)
    (htarget : t.targetClass u.className = some target)
    (htrim : Text.trim u.className = u.className) :
    (t.update u target).targetClass u.className = some target := by
  have hm := mem_classes_of_targetClass htarget
  have hother : ∀ i ∈ t.classes, i ≠ target →
      (t.update u target).isNamed u.className i = t.isNamed u.className i :=
    fun i hi hne => h.isNamed_of_ne ht hi hne u.className
  rw [targetClass_eq_choose] at htarget
  rw [targetClass_eq_choose, (h.alike_update u).classes_eq h.root_lt]
  cases hn : t.childByField target "name" with
  | none =>
    rw [← htarget]
    apply choose_congr
    intro i hi
    by_cases he : i = target
    · rw [he, isNamed, isNamed, h.childByField_class hm, hn, Option.any_none, Option.any_none]
    · exact hother i hi he
  | some n =>
    apply choose_of_change htarget hother
    have htext : (t.update u target).text n = u.className := by
      apply text_of_replacement
      rw [h.node_name_target ht.toPreordered hn]
      rfl
    rw [isNamed, h.childByField_class hm, hn]
    simp [htext, htrim]

end Updatable

/-- No declaration stands below the name of a namespace definition or a class. -/
def PlainNames (t : SyntaxTree) : Prop :=
  ∀ i ∈ t.preorder, t.isDeclaration i → ∀ n ∈ t.childByField i "name",
    ∀ x ∈ t.preorderFrom n, t.isDeclaration x = false

instance (t : SyntaxTree) : Decidable (PlainNames t) :=
  inferInstanceAs (Decidable (∀ i ∈ t.preorder, _))

theorem merge_of_target (h : t.targetClass className = some target) :
    t.merge namesp className names = .ok (t.update ⟨namesp, className, names⟩ target) := by
  rw [merge, h]

theorem PlainNames.updatable (h : PlainNames t) (hp : Preordered t) (hm : target ∈ t.classes) :
    Updatable t target := by
  obtain ⟨hmem, hk⟩ := List.mem_filter.mp hm
  rw [beq_iff_eq] at hk
  refine ⟨hp.ascending, ?_, hk, ?_⟩
  · intro i hi n hn
    obtain ⟨hi, hd⟩ := mem_declaredFrom.mp hi
    rw [declaredFrom, List.filter_eq_nil_iff]
    intro x hx
    simp [h i hi hd n hn x hx]
  · rw [declaredFrom, List.count_filter (isDeclaration_of_class hk)]
    exact List.count_eq_one_of_mem hp.treelike.nodup_preorder hmem

/-- Merging is incremental: to merge some methods and then others is to merge all of them at once,
node for node, and to merge none into a merged tree is to leave it as it is. -/
theorem merge_incremental (origin source namesp className : String) (a b : List String)
    (c : Concrete) (hw : c.WellFormed source) (hn : (c.lower origin source).PlainNames)
    (hc : (c.lower origin source).hasClass = true) (htrim : Text.trim className = className) :
    ∃ m₁ m₂,
      (c.lower origin source).merge namesp className a = .ok m₁ ∧
      m₁.merge namesp className b = .ok m₂ ∧
      (c.lower origin source).merge namesp className (a ++ b) = .ok m₂ ∧
      m₁.merge namesp className [] = .ok m₁ ∧
      m₂.print? (c.lower origin source) = some ((c.lower origin source).pieced m₂ root) := by
  have ht := c.lower_tiled origin hw
  generalize c.lower origin source = t at ht hn hc ⊢
  have hp := ht.toPreordered
  cases htarget : t.targetClass className with
  | none =>
    rw [targetClass_eq_none_iff] at htarget
    simp [hasClass, htarget] at hc
  | some target =>
    have hu := hn.updatable hp (mem_classes_of_targetClass htarget)
    have hagain : ∀ names, (t.update ⟨namesp, className, a⟩ target).merge namesp className names =
        .ok (t.update ⟨namesp, className, a ++ names⟩ target) := by
      intro names
      have hkeep := hu.targetClass_update (u := ⟨namesp, className, a⟩) ht htarget htrim
      rw [merge_of_target hkeep, hu.update_update hp]
    have hnone := hagain []
    rw [List.append_nil] at hnone
    have hprint := (hu.altered_update ⟨namesp, className, a ++ b⟩).print_eq ht
    exact ⟨_, _, merge_of_target htarget, hagain b, merge_of_target htarget, hnone, hprint⟩

def twoTestsSource : String :=
  "namespace T; class BTest \x7b\n    public function testX()\n    \x7b\n    \x7d\n\n" ++
    "    public function testY()\n    \x7b\n    \x7d\n\x7d"

theorem merge_incremental_emptyClass :
    emptyClass.WellFormed emptyClassSource ∧
      ∃ m₁ m₂,
        (emptyClass.lower "B.php" emptyClassSource).merge "T" "BTest" ["testX"] = .ok m₁ ∧
        m₁.merge "T" "BTest" ["testY"] = .ok m₂ ∧
        m₂.print? (emptyClass.lower "B.php" emptyClassSource) = some twoTestsSource := by
  have hw : emptyClass.WellFormed emptyClassSource := by decide
  obtain ⟨m₁, m₂, h₁, h₂, hboth, _, hprint⟩ :=
    merge_incremental "B.php" emptyClassSource "T" "BTest" ["testX"] ["testY"] emptyClass hw
      (by decide) (by decide) (by decide)
  refine ⟨hw, m₁, m₂, h₁, h₂, ?_⟩
  have hall : ((emptyClass.lower "B.php" emptyClassSource).merge "T" "BTest"
      ["testX", "testY"]).toOption = some m₂ := by
    rw [show ["testX", "testY"] = ["testX"] ++ ["testY"] from rfl, hboth]
    rfl
  have heval : (((emptyClass.lower "B.php" emptyClassSource).merge "T" "BTest"
      ["testX", "testY"]).toOption.map
        fun m => (emptyClass.lower "B.php" emptyClassSource).pieced m root) =
          some twoTestsSource := by
    decide +kernel
  rw [hall] at heval
  rw [hprint]
  exact heval

end SyntaxTree

end Scaffold
