import Scaffold.Merge
import Scaffold.Proofs.Tree.Editing

namespace Scaffold.SyntaxTree
set_option autoImplicit true

variable {t : SyntaxTree}

@[simp]
theorem size_pushChild (t : SyntaxTree) (parent : Nat) (n : SyntaxNode) :
    (t.pushChild parent n).size = t.size + 1 := by
  rw [pushChild, appendChild, size_insertChild, size_push]

@[simp]
theorem source_pushChild (t : SyntaxTree) (parent : Nat) (n : SyntaxNode) :
    (t.pushChild parent n).source = t.source :=
  rfl

theorem node_pushChild_of_lt (h : i < t.size) (hp : i ≠ parent) (n : SyntaxNode) :
    (t.pushChild parent n).node i = t.node i := by
  rw [pushChild, appendChild, node_insertChild_of_ne hp (Nat.ne_of_lt h), node_push_of_lt h]

theorem node_pushChild_parent (h : parent < t.size) (n : SyntaxNode) :
    (t.pushChild parent n).node parent =
      { t.node parent with children := t.children parent ++ [t.size] } := by
  have hlt : parent < (t.push n).size := by
    rw [size_push]
    omega
  rw [pushChild, appendChild, node_insertChild_parent hlt (Nat.ne_of_lt h),
    List.insertIdx_length_self, children, node_push_of_lt h]
  rfl

theorem node_pushChild_self (h : parent < t.size) (n : SyntaxNode) :
    (t.pushChild parent n).node t.size = { n with parent := some parent } := by
  have hlt : t.size < (t.push n).size := by
    rw [size_push]
    omega
  rw [pushChild, appendChild, node_insertChild_child hlt (Nat.ne_of_gt h), node_push_self]

structure Appended (t u : SyntaxTree) (a : Nat) (parts : List SyntaxNode) : Prop where
  size_eq : u.size = t.size + parts.length
  source_eq : u.source = t.source
  frame : ∀ i < t.size, i ≠ a → u.node i = t.node i
  parent : u.node a =
    { t.node a with children := t.children a ++ List.range' t.size parts.length }
  part : ∀ j n, parts[j]? = some n → u.node (t.size + j) = { n with parent := some a }

theorem appended_foldl_pushChild (ha : a < t.size) (parts : List SyntaxNode) :
    t.Appended (parts.foldl (fun u n => u.pushChild a n) t) a parts := by
  induction parts generalizing t with
  | nil => exact ⟨rfl, rfl, fun _ _ _ => rfl, by simp [children], nofun⟩
  | cons n parts ih =>
    have hlt : a < (t.pushChild a n).size := by
      rw [size_pushChild]
      omega
    have hr := ih hlt
    rw [List.foldl_cons]
    refine ⟨?_, by rw [hr.source_eq, source_pushChild], ?_, ?_, ?_⟩
    · rw [hr.size_eq, size_pushChild, List.length_cons]
      omega
    · intro i hi hne
      rw [hr.frame i (by rw [size_pushChild]; omega) hne, node_pushChild_of_lt hi hne]
    · rw [hr.parent, children, node_pushChild_parent ha, size_pushChild, List.length_cons,
        List.range'_succ, List.append_assoc, List.singleton_append]
    · intro j m hj
      cases j with
      | zero =>
        obtain rfl : n = m := by simpa using hj
        rw [Nat.add_zero, hr.frame t.size (by rw [size_pushChild]; omega) (Nat.ne_of_gt ha),
          node_pushChild_self ha]
      | succ j =>
        have hp := hr.part j m (by simpa using hj)
        rwa [size_pushChild, Nat.add_assoc, Nat.add_comm 1] at hp

/-- The method `public function name() {}` as a child of `body`. -/
structure StubAt (t : SyntaxTree) (body a : Nat) (name : String) : Prop where
  head : t.node a = { SyntaxNode.branch "method_declaration" with
    parent := some body, children := List.range' (a + 1) 5 }
  part : ∀ j n, (stubParts name)[j]? = some n → t.node (a + 1 + j) = { n with parent := some a }

theorem StubAt.children_eq (h : StubAt t body a name) :
    t.children a = [a + 1, a + 2, a + 3, a + 4, a + 5] := by
  rw [children, h.head]
  rfl

theorem StubAt.nodes (h : StubAt t body a name) :
    t.node (a + 1) = { SyntaxNode.leaf "visibility_modifier" "public" with parent := some a } ∧
    t.node (a + 2) = { (SyntaxNode.leaf "function" "function").anonymous with parent := some a } ∧
    t.node (a + 3) = { (SyntaxNode.leaf "name" name).withField "name" with parent := some a } ∧
    t.node (a + 4) =
      { (SyntaxNode.leaf "formal_parameters" "()").withField "parameters" with parent := some a } ∧
    t.node (a + 5) =
      { (SyntaxNode.leaf "compound_statement" "\x7b\x7d").withField "body" with
        parent := some a } := by
  refine ⟨?_, ?_, ?_, ?_, ?_⟩
  · exact h.part 0 (.leaf "visibility_modifier" "public") rfl
  · exact h.part 1 (SyntaxNode.leaf "function" "function").anonymous rfl
  · exact h.part 2 ((SyntaxNode.leaf "name" name).withField "name") rfl
  · exact h.part 3 ((SyntaxNode.leaf "formal_parameters" "()").withField "parameters") rfl
  · exact h.part 4 ((SyntaxNode.leaf "compound_statement" "\x7b\x7d").withField "body") rfl

theorem length_stubParts (name : String) : (stubParts name).length = 5 := rfl

structure Pushed (t u : SyntaxTree) (name : String) : Prop where
  size_eq : u.size = t.size + 6
  source_eq : u.source = t.source
  frame : ∀ i < t.size, u.node i = t.node i
  head : u.node t.size = { SyntaxNode.branch "method_declaration" with
    children := List.range' (t.size + 1) 5 }
  part : ∀ j n, (stubParts name)[j]? = some n →
    u.node (t.size + 1 + j) = { n with parent := some t.size }

theorem pushed_pushStub (t : SyntaxTree) (name : String) : t.Pushed (t.pushStub name) name := by
  have hlt : t.size < (t.push (.branch "method_declaration")).size := by
    rw [size_push]
    exact Nat.lt_succ_self _
  have h := appended_foldl_pushChild hlt (stubParts name)
  change Appended _ (t.pushStub name) _ _ at h
  refine ⟨?_, h.source_eq, ?_, ?_, ?_⟩
  · rw [h.size_eq, size_push, length_stubParts]
  · intro i hi
    rw [h.frame i (Nat.lt_trans hi hlt) (Nat.ne_of_lt hi), node_push_of_lt hi]
  · rw [h.parent, children, node_push_self, size_push, length_stubParts]
    rfl
  · intro j n hj
    rw [← size_push t (.branch "method_declaration"), h.part j n hj]

theorem insertIdx_before_last (l : List α) (x c : α) :
    (l ++ [c]).insertIdx l.length x = l ++ [x, c] := by
  induction l with
  | nil => rfl
  | cons a l ih => simpa using ih

theorem closingIndex_of_last (hc : t.children body = front ++ [close])
    (hk : t.kind close = "\x7d") : t.closingIndex body = front.length := by
  simp [closingIndex, hc, hk, List.findIdx?_cons]

/-- What adding stubs before the closing brace of a body does: `ids` are the stubs. -/
structure Stubbed (t u : SyntaxTree) (body : Nat) (front : List Nat) (close : Nat)
    (names : List String) (ids : List Nat) : Prop where
  size_le : t.size ≤ u.size
  source_eq : u.source = t.source
  frame : ∀ i < t.size, i ≠ body → u.node i = t.node i
  body_eq : u.node body = { t.node body with children := front ++ ids ++ [close] }
  stubs : List.Forall₂ (u.StubAt body) ids names
  fresh : ∀ a ∈ ids, t.size ≤ a ∧ a < u.size
  ascending : ∀ i, t.size ≤ i → ∀ c ∈ u.children i, i < c ∧ c < u.size

theorem stubParts_children {n : SyntaxNode} {j : Nat} (h : (stubParts name)[j]? = some n) :
    n.children = [] := by
  have hm := List.mem_of_getElem? h
  simp only [stubParts, List.mem_cons, List.not_mem_nil, or_false] at hm
  rcases hm with rfl | rfl | rfl | rfl | rfl <;> rfl

theorem exists_stubPart (hi : a < i) (hj : i < a + 6) (name : String) :
    ∃ j n, i = a + 1 + j ∧ (stubParts name)[j]? = some n := by
  have hlt : i - (a + 1) < (stubParts name).length := by
    rw [length_stubParts]
    omega
  exact ⟨i - (a + 1), _, by omega, List.getElem?_eq_getElem hlt⟩

theorem StubAt.child_of_mem (h : StubAt t body a name) (hi : a ≤ i) (hj : i < a + 6)
    (hc : c ∈ t.children i) : i < c ∧ c < a + 6 := by
  by_cases he : i = a
  · subst i
    rw [children, h.head, List.mem_range'_1] at hc
    omega
  · obtain ⟨j, n, rfl, hn⟩ := exists_stubPart (by omega) hj name
    rw [children, h.part j n hn, stubParts_children hn] at hc
    cases hc

theorem Pushed.stubAt (h : Pushed t u name) (hb : body < t.size) (index : Nat) :
    (u.insertChild body index t.size).StubAt body t.size name := by
  have hsize := h.size_eq
  constructor
  · rw [node_insertChild_child (by omega) (by omega), h.head]
  · intro j n hj
    rw [node_insertChild_of_ne (by omega) (by omega), h.part j n hj]

theorem Pushed.stubbed (h : Pushed t u name) (hb : body < t.size)
    (hc : t.children body = front ++ [close]) :
    t.Stubbed (u.insertChild body front.length t.size) body front close [name] [t.size] := by
  have hsize := h.size_eq
  have hstub := h.stubAt hb front.length
  refine ⟨?_, h.source_eq, ?_, ?_, .cons hstub .nil, ?_, ?_⟩
  · rw [size_insertChild]
    omega
  · intro i hi hne
    rw [node_insertChild_of_ne hne (by omega), h.frame i hi]
  · have hcs : (t.node body).children = front ++ [close] := hc
    rw [node_insertChild_parent (by omega) (by omega), children, h.frame body hb, hcs,
      insertIdx_before_last, List.append_assoc, List.singleton_append]
  · intro a ha
    rw [List.mem_singleton] at ha
    rw [size_insertChild]
    omega
  · intro i hi c hm
    have hlt := lt_size_of_mem_children hm
    rw [size_insertChild] at hlt ⊢
    have hbound := hstub.child_of_mem hi (by omega) hm
    omega

theorem stubbed_addStub (hb : body < t.size) (hclose : close < t.size)
    (hc : t.children body = front ++ [close]) (hk : t.kind close = "\x7d") (name : String) :
    t.Stubbed (addStub body t name) body front close [name] [t.size] ∧
      (addStub body t name).size = t.size + 6 := by
  have hp := pushed_pushStub t name
  change t.Stubbed ((t.pushStub name).insertChild body ((t.pushStub name).closingIndex body) t.size)
    body front close [name] [t.size] ∧
      ((t.pushStub name).insertChild body ((t.pushStub name).closingIndex body) t.size).size = _
  generalize t.pushStub name = u at hp
  have hcs : u.children body = front ++ [close] := by
    rw [children, hp.frame body hb]
    exact hc
  have hkc : u.kind close = "\x7d" := by
    rw [kind, hp.frame close hclose]
    exact hk
  rw [closingIndex_of_last hcs hkc, size_insertChild]
  exact ⟨hp.stubbed hb hc, hp.size_eq⟩

theorem StubAt.congr (h : StubAt t body a name)
    (he : ∀ i, a ≤ i → i < a + 6 → u.node i = t.node i) : StubAt u body a name := by
  constructor
  · rw [he a (by omega) (by omega), h.head]
  · intro j n hj
    have hlt := (List.getElem?_eq_some_iff.mp hj).1
    rw [length_stubParts] at hlt
    rw [he _ (by omega) (by omega), h.part j n hj]

theorem Stubbed.cons (h : Stubbed t u body front close [name] [t.size])
    (hr : Stubbed u v body (front ++ [t.size]) close names ids) (hb : body < t.size)
    (hsize : u.size = t.size + 6) :
    Stubbed t v body front close (name :: names) (t.size :: ids) := by
  have hle := hr.size_le
  refine ⟨by omega, hr.source_eq.trans h.source_eq, ?_, ?_, ?_, ?_, ?_⟩
  · intro i hi hne
    rw [hr.frame i (by omega) hne, h.frame i hi hne]
  · rw [hr.body_eq, h.body_eq]
    simp
  · obtain _ | ⟨hstub, _⟩ := h.stubs
    refine .cons (hstub.congr ?_) hr.stubs
    intro i hi hj
    exact hr.frame i (by omega) (by omega)
  · intro a ha
    rcases List.mem_cons.mp ha with rfl | ha
    · omega
    · have hf := hr.fresh a ha
      omega
  · intro i hi c hm
    by_cases hlt : i < u.size
    · rw [children, hr.frame i hlt (by omega)] at hm
      have hc := h.ascending i hi c hm
      omega
    · exact hr.ascending i (Nat.le_of_not_lt hlt) c hm

/-- Adding a stub for every name, one after the other. -/
theorem stubbed_foldl_addStub (hb : body < t.size) (hclose : close < t.size)
    (hne : close ≠ body) (hc : t.children body = front ++ [close])
    (hk : t.kind close = "\x7d") (names : List String) :
    ∃ ids, t.Stubbed (names.foldl (addStub body) t) body front close names ids := by
  induction names generalizing t front with
  | nil =>
    refine ⟨[], Nat.le_refl _, rfl, fun _ _ _ => rfl, ?_, .nil, nofun, ?_⟩
    · rw [List.append_nil, ← hc]
      rfl
    · intro i hi c hm
      exact absurd (lt_size_of_mem_children hm) (Nat.not_lt_of_le hi)
  | cons name names ih =>
    obtain ⟨h, hsize⟩ := stubbed_addStub hb hclose hc hk name
    rw [List.foldl_cons]
    generalize addStub body t name = u at h hsize
    have hc' : u.children body = (front ++ [t.size]) ++ [close] := by
      rw [children, h.body_eq]
    have hk' : u.kind close = "\x7d" := by
      rw [kind, h.frame close hclose hne]
      exact hk
    obtain ⟨ids, hr⟩ := ih (by omega) (by omega) hc' hk'
    exact ⟨t.size :: ids, h.cons hr hb hsize⟩

end Scaffold.SyntaxTree
