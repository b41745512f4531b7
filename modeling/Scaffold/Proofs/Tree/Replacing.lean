import Scaffold.Proofs.Tree.Editing

namespace Scaffold
set_option autoImplicit true

namespace SyntaxTree

variable {t u : SyntaxTree}

theorem ext_node (ho : t.origin = u.origin) (hs : t.source = u.source) (hsize : t.size = u.size)
    (hn : ∀ i < t.size, t.node i = u.node i) : t = u := by
  obtain ⟨origin, source, nodes⟩ := t
  obtain ⟨origin', source', nodes'⟩ := u
  obtain rfl : origin = origin' := ho
  obtain rfl : source = source' := hs
  congr 1
  apply Array.ext hsize
  intro i hi hi'
  have h := hn i hi
  simpa [node, Array.getElem?_eq_getElem hi, Array.getElem?_eq_getElem hi'] using h

theorem replaced_replaced (n : SyntaxNode) (x y : String) :
    (n.replaced x).replaced y = n.replaced y :=
  rfl

theorem kind_replaceWithText (t : SyntaxTree) (c : Nat) (x : String) (i : Nat) :
    (t.replaceWithText c x).kind i = t.kind i := by
  by_cases hi : i < t.size
  · by_cases he : i = c
    · subst he
      rw [kind, node_replaceWithText_self hi]
      rfl
    · rw [kind, node_replaceWithText_of_ne he]
      rfl
  · have hle := Nat.le_of_not_lt hi
    rw [kind, kind, node_of_size_le hle, node_of_size_le (by rwa [size_replaceWithText])]

theorem field_replaceWithText (t : SyntaxTree) (c : Nat) (x : String) (i : Nat) :
    ((t.replaceWithText c x).node i).field = (t.node i).field := by
  by_cases hi : i < t.size
  · by_cases he : i = c
    · subst he
      rw [node_replaceWithText_self hi]
      rfl
    · rw [node_replaceWithText_of_ne he]
  · have hle := Nat.le_of_not_lt hi
    rw [node_of_size_le hle, node_of_size_le (by rwa [size_replaceWithText])]

theorem children_replaceWithText_self (t : SyntaxTree) (c : Nat) (x : String) :
    (t.replaceWithText c x).children c = [] := by
  by_cases hc : c < t.size
  · rw [children, node_replaceWithText_self hc]
    rfl
  · rw [children, node_of_size_le (by rw [size_replaceWithText]; omega)]
    rfl

theorem children_replaceWithText_of_ne (h : i ≠ c) (x : String) :
    (t.replaceWithText c x).children i = t.children i := by
  rw [children, node_replaceWithText_of_ne h]
  rfl

theorem ascending_replaceWithText (h : t.Ascending) (i : Nat) (x : String) :
    (t.replaceWithText i x).Ascending := by
  intro j c hc
  have hj := lt_size_of_mem_children hc
  rw [size_replaceWithText] at hj ⊢
  by_cases he : j = i
  · subst j
    rw [children, node_replaceWithText_self hj] at hc
    cases hc
  · rw [children_replaceWithText_of_ne he] at hc
    exact h j c hc

def replaceAll (t : SyntaxTree) (edits : List (Nat × String)) : SyntaxTree :=
  edits.foldl (fun s e => s.replaceWithText e.1 e.2) t

theorem replaceAll_cons (t : SyntaxTree) (e : Nat × String) (edits : List (Nat × String)) :
    t.replaceAll (e :: edits) = (t.replaceWithText e.1 e.2).replaceAll edits :=
  List.foldl_cons ..

@[simp]
theorem size_replaceAll (t : SyntaxTree) (edits : List (Nat × String)) :
    (t.replaceAll edits).size = t.size := by
  induction edits generalizing t with
  | nil => rfl
  | cons e edits ih => rw [replaceAll_cons, ih, size_replaceWithText]

theorem replaceAll_append (t : SyntaxTree) (edits edits' : List (Nat × String)) :
    t.replaceAll (edits ++ edits') = (t.replaceAll edits).replaceAll edits' :=
  List.foldl_append

theorem node_replaceAll_of_ne (h : ∀ e ∈ edits, i ≠ e.1) :
    (t.replaceAll edits).node i = t.node i := by
  induction edits generalizing t with
  | nil => rfl
  | cons e edits ih =>
    rw [replaceAll_cons, ih fun e' he => h e' (List.mem_cons_of_mem _ he),
      node_replaceWithText_of_ne (h e List.mem_cons_self)]

theorem node_replaceAll_of_mem (hi : i < t.size) (hm : (i, x) ∈ edits)
    (hu : ∀ e ∈ edits, e.1 = i → e.2 = x) :
    (t.replaceAll edits).node i = (t.node i).replaced x := by
  induction edits generalizing t with
  | nil => cases hm
  | cons e edits ih =>
    have hu' : ∀ e' ∈ edits, e'.1 = i → e'.2 = x := fun e' he => hu e' (List.mem_cons_of_mem _ he)
    rw [replaceAll_cons]
    by_cases he : e.1 = i
    · obtain rfl := hu e List.mem_cons_self he
      subst he
      have hnode := node_replaceWithText_self hi e.2
      by_cases hlater : ∃ e' ∈ edits, e'.1 = e.1
      · obtain ⟨e', hm', he'⟩ := hlater
        have hpair : (e.1, e.2) ∈ edits := by
          rw [← he', ← hu' e' hm' he']
          exact hm'
        rw [ih (by simpa using hi) hpair hu', hnode, replaced_replaced]
      · rw [node_replaceAll_of_ne, hnode]
        exact fun e' hm' heq => hlater ⟨e', hm', heq.symm⟩
    · have hm' : (i, x) ∈ edits := by
        rcases List.mem_cons.mp hm with rfl | hm
        · exact absurd rfl he
        · exact hm
      rw [ih (by simpa using hi) hm' hu', node_replaceWithText_of_ne (Ne.symm he)]

theorem replaceWithText_of_replaced (h : t.node i = (t.node i).replaced x) :
    t.replaceWithText i x = t := by
  refine ext_node rfl rfl (size_replaceWithText ..) ?_
  intro j hj
  rw [size_replaceWithText] at hj
  by_cases he : j = i
  · subst he
    rw [node_replaceWithText_self hj, ← h]
  · exact node_replaceWithText_of_ne he x

theorem replaceAll_of_replaced (h : ∀ e ∈ edits, t.node e.1 = (t.node e.1).replaced e.2) :
    t.replaceAll edits = t := by
  induction edits with
  | nil => rfl
  | cons e edits ih =>
    have hhead := replaceWithText_of_replaced (h e List.mem_cons_self)
    have htail := ih fun e' he => h e' (List.mem_cons_of_mem _ he)
    rw [replaceAll_cons, hhead, htail]

/-- Doing the same replacements again changes nothing. -/
theorem replaceAll_replaceAll (hlt : ∀ e ∈ edits, e.1 < t.size)
    (hu : ∀ e ∈ edits, ∀ e' ∈ edits, e'.1 = e.1 → e'.2 = e.2) :
    (t.replaceAll edits).replaceAll edits = t.replaceAll edits := by
  apply replaceAll_of_replaced
  intro e he
  rw [node_replaceAll_of_mem (hlt e he) he (hu e he), replaced_replaced]

end SyntaxTree

end Scaffold
