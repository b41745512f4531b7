import Mathlib.Data.Finset.Card
import Mathlib.Data.List.InsertIdx
import Scaffold.Proofs.Tree.Replacing
import Scaffold.Proofs.Tree.Walks

namespace Scaffold
set_option autoImplicit true

namespace SyntaxTree

/-- What edits make of a tree, and the nodes that were added to it and never had a place. Of an
added node only this counts, that nothing stands below it yet. -/
inductive Edited (t : SyntaxTree) : SyntaxTree → List Nat → Prop where
  | start : Edited t t []
  | push {n : SyntaxNode} (h : Edited t e loose) (hn : n.children = []) :
      Edited t (e.push n) (e.size :: loose)
  | append (h : Edited t e loose) (hp : parent < e.size) (hc : child ∈ loose)
      (hapart : ¬ e.Reaches child parent) :
      Edited t (e.appendChild parent child) (loose.erase child)
  | insert (h : Edited t e loose) (hp : parent < e.size) (hc : child ∈ loose)
      (hapart : ¬ e.Reaches child parent) (he : e.insertChild? parent index child = some e') :
      Edited t e' (loose.erase child)
  | replace (h : Edited t e loose) (hi : i < e.size) (text : String) :
      Edited t (e.replaceWithText i text) loose

variable {t e : SyntaxTree}

theorem children_push {n : SyntaxNode} (hn : n.children = []) (i : Nat) :
    (t.push n).children i = t.children i := by
  rcases Nat.lt_trichotomy i t.size with hlt | rfl | hgt
  · rw [children, node_push_of_lt hlt, children]
  · rw [children, node_push_self, hn, children, node_of_size_le (Nat.le_refl _)]
    rfl
  · rw [children, node_of_size_le (by rw [size_push]; exact hgt), children,
      node_of_size_le (Nat.le_of_lt hgt)]

theorem children_insertChild_self (hp : parent < t.size) (hne : parent ≠ child) (index : Nat) :
    (t.insertChild parent index child).children parent =
      (t.children parent).insertIdx index child := by
  rw [children, node_insertChild_parent hp hne]

theorem children_insertChild_of_ne (hc : child < t.size) (h : i ≠ parent) (index : Nat) :
    (t.insertChild parent index child).children i = t.children i := by
  by_cases hi : i = child
  · subst hi
    rw [children, node_insertChild_child hc h]
    rfl
  · rw [children, node_insertChild_of_ne h hi, children]

theorem mem_children_insertChild (hp : parent < t.size) (hc : child < t.size)
    (hne : parent ≠ child) (h : c ∈ (t.insertChild parent index child).children i) :
    c ∈ t.children i ∨ i = parent ∧ c = child := by
  by_cases hi : i = parent
  · subst hi
    rw [children_insertChild_self hp hne] at h
    rcases List.eq_or_mem_of_mem_insertIdx h with rfl | h
    · exact .inr ⟨rfl, rfl⟩
    · exact .inl h
  · rw [children_insertChild_of_ne hc hi] at h
    exact .inl h

theorem mem_children_replaceWithText {text : String}
    (h : c ∈ (t.replaceWithText j text).children i) : c ∈ t.children i := by
  by_cases hi : i = j
  · subst hi
    rw [children_replaceWithText_self] at h
    cases h
  · rwa [children_replaceWithText_of_ne hi] at h

/-- Heights that sink from parents to children can be told with the number of nodes as a bound. -/
theorem exists_ranked {f : Nat → Nat} (hlt : ∀ {i c}, c ∈ t.children i → c < t.size)
    (hf : ∀ {i c}, c ∈ t.children i → f c < f i) : ∃ height, Ranked t height := by
  -- a node is as high as there are lower ones
  refine ⟨fun i => ((Finset.range t.size).filter (f · < f i)).card, ?_, ?_⟩
  · intro i c hc
    apply Finset.card_lt_card
    rw [Finset.ssubset_iff_of_subset]
    · refine ⟨c, Finset.mem_filter.mpr ⟨Finset.mem_range.mpr (hlt hc), hf hc⟩, ?_⟩
      simp
    · intro j hj
      rw [Finset.mem_filter] at hj ⊢
      exact ⟨hj.1, hj.2.trans (hf hc)⟩
  · intro i
    exact (Finset.card_filter_le _ _).trans (Nat.le_of_eq (Finset.card_range _))

namespace Treelike

theorem lt_size (ht : t.Treelike) (hc : c ∈ t.children i) : c < t.size := by
  by_contra hlt
  have hp := ht.parent_of_mem hc
  rw [node_of_size_le (Nat.le_of_not_lt hlt)] at hp
  cases hp

theorem push {n : SyntaxNode} (ht : t.Treelike) (hn : n.children = []) : (t.push n).Treelike where
  ranked := by
    obtain ⟨height, hr⟩ := ht.ranked
    refine ⟨height, ?_, ?_⟩
    · intro i c hc
      rw [children_push hn] at hc
      exact hr.child_lt hc
    · intro i
      rw [size_push]
      exact Nat.le_succ_of_le (hr.le_size i)
  parent_of_mem := by
    intro i c hc
    rw [children_push hn] at hc
    rw [node_push_of_lt (ht.lt_size hc), ht.parent_of_mem hc]
  children_nodup i := by
    rw [children_push hn]
    exact ht.children_nodup i

theorem replaceWithText (ht : t.Treelike) (j : Nat) (text : String) :
    (t.replaceWithText j text).Treelike where
  ranked := by
    obtain ⟨height, hr⟩ := ht.ranked
    refine ⟨height, fun hc => hr.child_lt (mem_children_replaceWithText hc), ?_⟩
    intro i
    rw [size_replaceWithText]
    exact hr.le_size i
  parent_of_mem := by
    intro i c hc
    have hold := mem_children_replaceWithText hc
    rw [← ht.parent_of_mem hold]
    by_cases he : c = j
    · subst he
      rw [node_replaceWithText_self (ht.lt_size hold)]
      rfl
    · rw [node_replaceWithText_of_ne he]
  children_nodup i := by
    by_cases he : i = j
    · subst he
      rw [children_replaceWithText_self]
      exact List.nodup_nil
    · rw [children_replaceWithText_of_ne he]
      exact ht.children_nodup i

theorem ranked_insertChild (ht : t.Treelike) (hp : parent < t.size) (hc : child < t.size)
    (hapart : ¬ t.Reaches child parent) (index : Nat) :
    ∃ height, Ranked (t.insertChild parent index child) height := by
  classical
  have hne : parent ≠ child := by
    rintro rfl
    exact hapart .refl
  obtain ⟨height, hr⟩ := ht.ranked
  -- the nodes above the new place rise by as much as the new child is high
  let f i := height i + if t.Reaches i parent then height child + 1 else 0
  refine exists_ranked (f := f) ?_ ?_
  · intro i c h
    rw [size_insertChild]
    rcases mem_children_insertChild hp hc hne h with h | ⟨_, rfl⟩
    · exact ht.lt_size h
    · exact hc
  · intro i c h
    simp only [f]
    rcases mem_children_insertChild hp hc hne h with h | ⟨rfl, rfl⟩
    · have hlt := hr.child_lt h
      by_cases hreach : t.Reaches c parent
      · have hup : t.Reaches i parent := .head h hreach
        rw [if_pos hreach, if_pos hup]
        omega
      · rw [if_neg hreach]
        omega
    · have hself : t.Reaches i i := .refl
      rw [if_neg hapart, if_pos hself]
      omega

theorem parent_of_mem_insertChild (ht : t.Treelike) (hp : parent < t.size) (hc : child < t.size)
    (hfree : ∀ i, child ∉ t.children i) (hne : parent ≠ child)
    (h : c ∈ (t.insertChild parent index child).children i) :
    ((t.insertChild parent index child).node c).parent = some i := by
  rcases mem_children_insertChild hp hc hne h with hold | ⟨rfl, rfl⟩
  · have hcc : c ≠ child := by
      rintro rfl
      exact hfree i hold
    by_cases hcp : c = parent
    · subst hcp
      rw [node_insertChild_parent hp hne]
      exact ht.parent_of_mem hold
    · rw [node_insertChild_of_ne hcp hcc]
      exact ht.parent_of_mem hold
  · rw [node_insertChild_child hc hne.symm]

theorem insertChild (ht : t.Treelike) (hp : parent < t.size) (hc : child < t.size)
    (hfree : ∀ i, child ∉ t.children i) (hapart : ¬ t.Reaches child parent)
    (hindex : index ≤ (t.children parent).length) :
    (t.insertChild parent index child).Treelike := by
  have hne : parent ≠ child := by
    rintro rfl
    exact hapart .refl
  refine ⟨ht.ranked_insertChild hp hc hapart index,
    ht.parent_of_mem_insertChild hp hc hfree hne, ?_⟩
  intro i
  by_cases hi : i = parent
  · subst hi
    rw [children_insertChild_self hp hne, (List.perm_insertIdx child _ hindex).nodup_iff]
    exact List.nodup_cons.mpr ⟨hfree i, ht.children_nodup i⟩
  · rw [children_insertChild_of_ne hc hi]
    exact ht.children_nodup i

end Treelike

structure Growing (t : SyntaxTree) (loose : List Nat) : Prop extends Treelike t where
  root_lt : root < t.size
  root_parent : (t.node root).parent = none
  lt_size : ∀ c ∈ loose, c < t.size
  ne_root : ∀ c ∈ loose, c ≠ root
  free : ∀ c ∈ loose, ∀ i, c ∉ t.children i
  nodup : loose.Nodup

namespace Growing

theorem push {n : SyntaxNode} (h : t.Growing loose) (hn : n.children = []) :
    (t.push n).Growing (t.size :: loose) where
  toTreelike := h.toTreelike.push hn
  root_lt := by
    rw [size_push]
    exact Nat.lt_succ_of_lt h.root_lt
  root_parent := by
    rw [node_push_of_lt h.root_lt]
    exact h.root_parent
  lt_size := by
    intro c hc
    rw [size_push]
    rcases List.mem_cons.mp hc with rfl | hc
    · exact Nat.lt_succ_self _
    · exact Nat.lt_succ_of_lt (h.lt_size c hc)
  ne_root := by
    intro c hc
    rcases List.mem_cons.mp hc with rfl | hc
    · exact Nat.ne_of_gt h.root_lt
    · exact h.ne_root c hc
  free := by
    intro c hc i hm
    rw [children_push hn] at hm
    rcases List.mem_cons.mp hc with rfl | hc
    · exact Nat.lt_irrefl _ (h.toTreelike.lt_size hm)
    · exact h.free c hc i hm
  nodup := List.nodup_cons.mpr ⟨fun hc => Nat.lt_irrefl _ (h.lt_size _ hc), h.nodup⟩

theorem replaceWithText (h : t.Growing loose) (i : Nat) (text : String) :
    (t.replaceWithText i text).Growing loose where
  toTreelike := h.toTreelike.replaceWithText i text
  root_lt := by
    rw [size_replaceWithText]
    exact h.root_lt
  root_parent := by
    by_cases he : root = i
    · subst he
      rw [node_replaceWithText_self h.root_lt]
      exact h.root_parent
    · rw [node_replaceWithText_of_ne he]
      exact h.root_parent
  lt_size := by
    rw [size_replaceWithText]
    exact h.lt_size
  ne_root := h.ne_root
  free c hc j hm := h.free c hc j (mem_children_replaceWithText hm)
  nodup := h.nodup

theorem insertChild (h : t.Growing loose) (hp : parent < t.size) (hc : child ∈ loose)
    (hapart : ¬ t.Reaches child parent) (hindex : index ≤ (t.children parent).length) :
    (t.insertChild parent index child).Growing (loose.erase child) :=
  have hlt := h.lt_size child hc
  have hne : parent ≠ child := by
    rintro rfl
    exact hapart .refl
  { toTreelike := h.toTreelike.insertChild hp hlt (h.free child hc) hapart hindex
    root_lt := by
      rw [size_insertChild]
      exact h.root_lt
    root_parent := by
      have hroot := (h.ne_root child hc).symm
      by_cases hp' : root = parent
      · subst hp'
        rw [node_insertChild_parent hp hne]
        exact h.root_parent
      · rw [node_insertChild_of_ne hp' hroot]
        exact h.root_parent
    lt_size := by
      intro c hm
      rw [size_insertChild]
      exact h.lt_size c (List.mem_of_mem_erase hm)
    ne_root := fun c hm => h.ne_root c (List.mem_of_mem_erase hm)
    free := by
      intro c hm i hi
      rw [h.nodup.mem_erase_iff] at hm
      rcases mem_children_insertChild hp hlt hne hi with hi | ⟨_, rfl⟩
      · exact h.free c hm.2 i hi
      · exact hm.1 rfl
    nodup := h.nodup.erase child }

end Growing

theorem insertChild?_eq_some (h : t.insertChild? parent index child = some t') :
    index ≤ (t.children parent).length ∧ t' = t.insertChild parent index child := by
  rw [insertChild?] at h
  split at h
  · rename_i hi
    exact ⟨hi, (Option.some.inj h).symm⟩
  · cases h

theorem Edited.growing (h : t.Edited e loose) (ht : t.Growing []) : e.Growing loose := by
  induction h with
  | start => exact ht
  | push _ hn ih => exact ih.push hn
  | append _ hp hc hapart ih => exact ih.insertChild hp hc hapart (Nat.le_refl _)
  | insert _ hp hc hapart he ih =>
    obtain ⟨hi, rfl⟩ := insertChild?_eq_some he
    exact ih.insertChild hp hc hapart hi
  | replace _ _ text ih => exact ih.replaceWithText _ text

end SyntaxTree

theorem Concrete.lower_growing (origin source : String) (c : Concrete) :
    (c.lower origin source).Growing [] where
  toTreelike := (c.lower_preordered origin source).treelike
  root_lt := by
    rw [size_lower]
    exact one_le_size c
  root_parent := (laid_lower origin source c).parent_eq
  lt_size := nofun
  ne_root := nofun
  free := nofun
  nodup := List.nodup_nil

namespace SyntaxTree

/-- Whatever edits a tree goes through, what can be reached from its root stays a tree. -/
theorem edited_treeShaped (origin source : String) (c : Concrete)
    (h : (c.lower origin source).Edited e loose) : e.TreeShaped :=
  have hg := h.growing (c.lower_growing origin source)
  hg.toTreelike.treeShaped hg.root_parent

def twoWords : SyntaxTree :=
  (Concrete.node "program" true none ⟨0, 3⟩
    [.node "block" true none ⟨0, 3⟩
      [.node "name" true none ⟨0, 1⟩ [], .node "name" true none ⟨2, 3⟩ []]]).lower "a.txt" "a b"

def grouped : SyntaxTree :=
  ((twoWords.push (.branch "group")).push (.leaf "name" "c")).appendChild 4 5

/-- The group comes between the other words, and a text takes its place. -/
def regrouped : SyntaxTree :=
  (grouped.insertChild 1 1 4).replaceWithText 4 "d"

theorem edited_regrouped : twoWords.Edited regrouped [] := by
  have hstart : twoWords.Growing [] := Concrete.lower_growing _ _ _
  have hpushed : twoWords.Edited ((twoWords.push (.branch "group")).push (.leaf "name" "c"))
      [5, 4] := (Edited.start.push rfl).push rfl
  have hgrouped : twoWords.Edited grouped [4] := by
    refine hpushed.append (by decide) (by decide) ?_
    rw [(hpushed.growing hstart).reaches_iff]
    decide
  have hinserted : grouped.insertChild? 1 1 4 = some (grouped.insertChild 1 1 4) := rfl
  refine Edited.replace (hgrouped.insert (by decide) (by decide) ?_ hinserted) (by decide) "d"
  rw [(hgrouped.growing hstart).reaches_iff]
  decide

/-- The word of the replaced group still notes it as its parent. -/
theorem edited_treeShaped_regrouped :
    twoWords.Edited regrouped [] ∧ regrouped.TreeShaped ∧
      regrouped.preorder = [0, 1, 2, 4, 3] ∧ (regrouped.node 5).parent = some 4 :=
  ⟨edited_regrouped, edited_treeShaped _ _ _ edited_regrouped, by decide, by decide⟩

end SyntaxTree

end Scaffold
