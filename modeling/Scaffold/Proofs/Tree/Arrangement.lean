import Scaffold.Proofs.Tree.Worklist

namespace Scaffold
set_option autoImplicit true

def Span.covers (s : Span) (x : Nat) : Bool :=
  decide (s.start ≤ x ∧ x < s.stop)

namespace Concrete

mutual

def preorder : Concrete → List Concrete
  | node kind named label span cs => node kind named label span cs :: preorderAll cs

def preorderAll : List Concrete → List Concrete
  | [] => []
  | c :: cs => c.preorder ++ preorderAll cs

end

mutual

/-- The ranges below a node that is taken to cover `span` are in order, apart from each other and
inside the range of their parent. -/
def Nested (span : Span) : Concrete → Prop
  | node _ _ _ _ cs => NestedAll span.start span.stop cs

def NestedAll (cursor stop : Nat) : List Concrete → Prop
  | [] => cursor ≤ stop
  | c :: cs => cursor ≤ c.span.start ∧ Nested c.span c ∧ NestedAll c.span.stop stop cs

end

mutual

theorem length_preorder : ∀ c : Concrete, c.preorder.length = c.size
  | node _ _ _ _ cs => by
    rw [preorder, List.length_cons, length_preorderAll, size, Nat.add_comm]

theorem length_preorderAll : ∀ cs : List Concrete, (preorderAll cs).length = sizeAll cs
  | [] => rfl
  | c :: cs => by
    rw [preorderAll, List.length_append, length_preorder, length_preorderAll, sizeAll]

end

mutual

theorem Nested.le : ∀ {c : Concrete} {span}, Nested span c → span.start ≤ span.stop
  | node _ _ _ _ _, _, h => NestedAll.le h

theorem NestedAll.le : ∀ {cs : List Concrete} {cursor stop}, NestedAll cursor stop cs →
    cursor ≤ stop
  | [], _, _, h => h
  | _ :: _, _, _, h => Nat.le_trans h.1 (Nat.le_trans h.2.1.le h.2.2.le)

end

end Concrete

namespace SyntaxTree

/-- The nodes `cs` follow each other from `cursor` to `stop`, each behind the gap before it. -/
def Abut (t : SyntaxTree) : Nat → List Nat → Nat → Prop
  | cursor, [], stop => cursor = stop
  | cursor, c :: cs, stop => ∃ s, (t.node c).span = some s ∧
      (t.node c).leading = some ⟨cursor, s.start⟩ ∧ cursor ≤ s.start ∧ s.start ≤ s.stop ∧
      t.Abut s.stop cs stop

def piecesOf (t : SyntaxTree) (cs : List Nat) : List Span :=
  cs.flatMap fun c => (t.node c).leading.toList ++ (t.node c).span.toList

/-- The ranges of the children of a node and of the gaps between them. -/
def pieces (t : SyntaxTree) (i : Nat) : List Span :=
  t.piecesOf (t.children i) ++ (t.node i).trailing.toList

variable {t : SyntaxTree}

theorem Abut.le (h : t.Abut a cs b) : a ≤ b := by
  induction cs generalizing a with
  | nil => exact Nat.le_of_eq h
  | cons c cs ih =>
    obtain ⟨s, _, _, ha, hs, hrest⟩ := h
    exact Nat.le_trans ha (Nat.le_trans hs (ih hrest))

theorem Abut.countP_piecesOf (h : t.Abut a cs b) (x : Nat) :
    (t.piecesOf cs).countP (·.covers x) = if a ≤ x ∧ x < b then 1 else 0 := by
  induction cs generalizing a with
  | nil =>
    obtain rfl : a = b := h
    rw [if_neg (by omega)]
    rfl
  | cons c cs ih =>
    obtain ⟨s, hs, hl, ha, hle, hrest⟩ := h
    have hb := hrest.le
    have hpieces : t.piecesOf (c :: cs) = [⟨a, s.start⟩, s] ++ t.piecesOf cs := by
      rw [piecesOf, List.flatMap_cons, hs, hl]
      rfl
    rw [hpieces, List.countP_append, ih hrest]
    simp only [List.countP_cons, List.countP_nil, Span.covers, decide_eq_true_eq]
    grind

/-- The node at an index is the copy of `x` over the range `s`. The nodes of the whole concrete tree
are copied in the given order. -/
structure Copied (t : SyntaxTree) (order : List Concrete) (i : Nat) (x : Concrete) (s : Span) :
    Prop where
  kind : (t.node i).kind = x.kind
  named : (t.node i).named = x.named
  span : (t.node i).span = some s
  replacement : (t.node i).replacement = none
  /-- The children are the copies of the children of `x`, in their order. -/
  children : (t.children i).map (order[·]?) = x.children.map some
  /-- Gaps and children follow each other up to the end of the range. -/
  gaps : ∃ stop, t.Abut s.start (t.children i) stop ∧ stop ≤ s.stop ∧
    (t.node i).trailing = if (t.children i).isEmpty then none else some ⟨stop, s.stop⟩

/-- Every byte in the range of a node with children is in one gap or child, and no other byte is. -/
theorem Copied.countP_pieces (h : t.Copied order i x s) (hi : t.children i ≠ []) (b : Nat) :
    (t.pieces i).countP (·.covers b) = if s.covers b then 1 else 0 := by
  obtain ⟨stop, habut, hle, ht⟩ := h.gaps
  have ha := habut.le
  rw [if_neg (by simpa using hi)] at ht
  rw [pieces, ht, List.countP_append, habut.countP_piecesOf]
  simp only [Option.toList_some, List.countP_cons, List.countP_nil, Span.covers,
    decide_eq_true_eq]
  grind

end SyntaxTree

namespace Concrete

variable {t : SyntaxTree} {order : List Concrete}

theorem getElem?_of_prefix_drop {l : List α} (h : x :: xs <+: l.drop i) : l[i]? = some x := by
  obtain ⟨ys, hys⟩ := h
  rw [← Nat.add_zero i, ← List.getElem?_drop, ← hys]
  rfl

theorem prefix_drop_of_append {l : List α} (h : xs ++ ys <+: l.drop i) :
    ys <+: l.drop (i + xs.length) := by
  obtain ⟨zs, hzs⟩ := h
  refine ⟨zs, ?_⟩
  rw [← List.drop_drop, ← hzs, List.append_assoc, List.drop_left]

theorem prefix_of_preorder {c : Concrete} (h : c.preorder <+: order.drop i) :
    preorderAll c.children <+: order.drop (i + 1) := by
  cases c
  rw [preorder, ← List.singleton_append] at h
  exact prefix_drop_of_append h

theorem prefix_of_preorderAll (h : preorderAll (c :: cs) <+: order.drop i) :
    c.preorder <+: order.drop i ∧ preorderAll cs <+: order.drop (i + c.size) := by
  rw [preorderAll] at h
  refine ⟨(List.prefix_append _ _).trans h, ?_⟩
  rw [← length_preorder]
  exact prefix_drop_of_append h

theorem getElem?_of_preorder {c : Concrete} (h : c.preorder <+: order.drop i) :
    order[i]? = some c := by
  cases c
  exact getElem?_of_prefix_drop h

theorem map_indices (h : preorderAll cs <+: order.drop next) :
    (indices next cs).map (order[·]?) = cs.map some := by
  induction cs generalizing next with
  | nil => rfl
  | cons c cs ih =>
    obtain ⟨hc, hcs⟩ := prefix_of_preorderAll h
    rw [indices, List.map_cons, getElem?_of_preorder hc, ih hcs, List.map_cons]

theorem NestedAll.advance_eq (h : NestedAll cursor stop (c :: cs)) :
    advance cursor c = c.span.stop := by
  have hstart := h.1
  have hle := h.2.1.le
  simp only [advance]
  omega

theorem LaidAll.abut (h : LaidAll t fields parent cursor next cs) (hn : NestedAll cursor stop cs) :
    t.Abut cursor (indices next cs) (cs.foldl advance cursor) ∧
      cs.foldl advance cursor ≤ stop := by
  induction cs generalizing cursor next with
  | nil => exact ⟨rfl, hn⟩
  | cons c cs ih =>
    have hle := hn.2.1.le
    have hnode := h.1.node_eq
    have htail := h.2
    rw [Nat.max_eq_left hn.1] at hnode
    rw [hn.advance_eq] at htail
    rw [List.foldl_cons, hn.advance_eq]
    obtain ⟨habut, hstop⟩ := ih htail hn.2.2
    refine ⟨⟨c.span, ?_, ?_, hn.1, hle, habut⟩, hstop⟩
    · rw [hnode]
      cases c
      rfl
    · rw [hnode]
      cases c
      rfl

theorem Laid.copied_head {c : Concrete} {span : Span} (h : Laid t parent field leading span i c)
    (hn : Nested span c) (ho : c.preorder <+: order.drop i) : t.Copied order i c span := by
  have hnode := h.node_eq
  have hchildren := h.children_eq
  cases c with
  | node kind named label own cs =>
    have hrest : preorderAll cs <+: order.drop (i + 1) := prefix_of_preorder ho
    obtain ⟨habut, hstop⟩ := h.2.abut hn
    refine ⟨by rw [hnode]; rfl, by rw [hnode]; rfl, by rw [hnode]; rfl, by rw [hnode]; rfl, ?_,
      cs.foldl advance span.start, ?_, hstop, ?_⟩
    · rw [hchildren]
      exact map_indices hrest
    · rw [hchildren]
      exact habut
    · rw [hchildren, hnode, headNode, Nat.max_eq_left hstop]
      cases cs <;> rfl

mutual

/-- Every node of a laid tree is a copy of the node at its place in preorder. -/
theorem Laid.copied : ∀ {c : Concrete} {parent field leading span i},
    Laid t parent field leading span i c → Nested span c → c.preorder <+: order.drop i →
      ∀ k x, c.preorder[k]? = some x →
        t.Copied order (i + k) x (if k = 0 then span else x.span)
  | node kind named label own cs, parent, field, leading, span, i, h, hn, ho, k, x, hk => by
    cases k with
    | zero =>
      obtain rfl := Option.some.inj hk
      exact h.copied_head hn ho
    | succ k =>
      have hrest : preorderAll cs <+: order.drop (i + 1) := prefix_of_preorder ho
      have hplace : i + (k + 1) = i + 1 + k := by omega
      rw [if_neg (Nat.succ_ne_zero k), hplace]
      exact h.2.copied hn hrest k x hk

theorem LaidAll.copied : ∀ {cs : List Concrete} {fields parent cursor stop next},
    LaidAll t fields parent cursor next cs → NestedAll cursor stop cs →
      preorderAll cs <+: order.drop next → ∀ k x, (preorderAll cs)[k]? = some x →
        t.Copied order (next + k) x x.span
  | [], _, _, _, _, _, _, _, _, k, x, hk => by
    cases hk
  | c :: cs, fields, parent, cursor, stop, next, h, hn, ho, k, x, hk => by
    obtain ⟨hc, hcs⟩ := prefix_of_preorderAll ho
    rw [preorderAll] at hk
    by_cases hlt : k < c.size
    · rw [List.getElem?_append_left (by rwa [length_preorder])] at hk
      have hcopied := h.1.copied hn.2.1 hc k x hk
      cases k with
      | zero =>
        obtain rfl : c = x := by
          cases c
          exact Option.some.inj hk
        exact hcopied
      | succ k => exact hcopied
    · have hle := Nat.le_of_not_lt hlt
      rw [List.getElem?_append_right (by rwa [length_preorder]), length_preorder] at hk
      have htail := h.2
      rw [hn.advance_eq] at htail
      have hcopied := htail.copied hn.2.2 hcs (k - c.size) x hk
      rwa [Nat.add_assoc, Nat.add_sub_cancel' hle] at hcopied

end

end Concrete

/-- The arena holds the copies of the nodes of a concrete tree in preorder, and the ranges of the
children and the gaps between them make up the range of each node. The root is taken to cover the
whole source. -/
structure SyntaxTree.Arranged (t : SyntaxTree) (c : Concrete) : Prop where
  size_eq : t.size = c.preorder.length
  copied : ∀ i x, c.preorder[i]? = some x →
    t.Copied c.preorder i x (if i = 0 then ⟨0, t.source.utf8ByteSize⟩ else x.span)
  parent : ∀ i, ∀ b ∈ t.children i, (t.node b).parent = some i ∧ i < b
  /-- Every byte in the range of a node with children is in one gap or child, and no other is. -/
  shared : ∀ i s, (t.node i).span = some s → t.children i ≠ [] →
    ∀ b, (t.pieces i).countP (·.covers b) = if s.covers b then 1 else 0
  trailing : ∀ i, t.children i = [] → (t.node i).trailing = none

/-- Copying a concrete tree with a stack and by recursion makes the same arena, in which the nodes
stand in preorder and leave no byte between them. -/
theorem Concrete.lower_arranged (origin source : String) {c : Concrete}
    (h : Nested ⟨0, source.utf8ByteSize⟩ c) :
    copyAll #[] [⟨c, none, none, ⟨0, 0⟩, ⟨0, source.utf8ByteSize⟩⟩] =
        (c.lower origin source).nodes ∧
      (c.lower origin source).Arranged c := by
  have hsize : (c.lower origin source).size = c.preorder.length := by
    rw [size_lower, length_preorder]
  have hcopied : ∀ i x, c.preorder[i]? = some x → (c.lower origin source).Copied c.preorder i x
      (if i = 0 then ⟨0, source.utf8ByteSize⟩ else x.span) := by
    intro i x hi
    have hall := (laid_lower origin source c).copied h (List.prefix_refl _) i x hi
    rwa [Nat.zero_add] at hall
  have hnode : ∀ i < (c.lower origin source).size,
      ∃ x s, (c.lower origin source).Copied c.preorder i x s := by
    intro i hi
    rw [hsize] at hi
    exact ⟨_, _, hcopied i _ (List.getElem?_eq_getElem hi)⟩
  refine ⟨copyAll_eq_lower origin source c, hsize, hcopied, ?_, ?_, ?_⟩
  · intro i b hb
    have hchild := lower_child_of_mem hb
    exact ⟨hchild.2.2, hchild.1⟩
  · intro i s hs hi b
    have hlt := SyntaxTree.lt_size_of_mem_children (List.head_mem hi)
    obtain ⟨x, s', hx⟩ := hnode i hlt
    obtain rfl := Option.some.inj (hs.symm.trans hx.span)
    exact hx.countP_pieces hi b
  · intro i hi
    by_cases hlt : i < (c.lower origin source).size
    · obtain ⟨x, s, hx⟩ := hnode i hlt
      obtain ⟨stop, _, _, ht⟩ := hx.gaps
      rw [ht, hi]
      rfl
    · rw [SyntaxTree.node_of_size_le (Nat.le_of_not_lt hlt)]
      rfl

/-- The first node ends inside a letter of two bytes, the second is empty. -/
def splitLetter : Concrete :=
  .node "program" true none ⟨0, 4⟩
    [.node "name" true (some "name") ⟨0, 1⟩ [], .node "name" true none ⟨1, 1⟩ [],
      .node "block" true (some "body") ⟨2, 4⟩ [.node ";" false none ⟨3, 4⟩ []]]

theorem Concrete.lower_arranged_splitLetter :
    splitLetter.Nested ⟨0, 4⟩ ∧ (splitLetter.lower "a.txt" "é ;").Arranged splitLetter ∧
      (splitLetter.lower "a.txt" "é ;").pieces 0 =
        [⟨0, 0⟩, ⟨0, 1⟩, ⟨1, 1⟩, ⟨1, 1⟩, ⟨1, 2⟩, ⟨2, 4⟩, ⟨4, 4⟩] := by
  have hnested : splitLetter.Nested ⟨0, "é ;".utf8ByteSize⟩ := by
    have hsize : 4 ≤ "é ;".utf8ByteSize := by decide
    simpa [splitLetter, Nested, NestedAll, span] using hsize
  exact ⟨hnested, (lower_arranged "a.txt" "é ;" hnested).2, by decide⟩

end Scaffold
