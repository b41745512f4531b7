import Mathlib.Data.List.InsertIdx
import Scaffold.Proofs.Merge.Extraction
import Scaffold.Proofs.Tree.Edits
import Scaffold.Proofs.Tree.Replacing

namespace Scaffold
set_option autoImplicit true

theorem isNew_stubParts {n : SyntaxNode} (h : n ∈ SyntaxTree.stubParts name) : n.IsNew := by
  simp only [SyntaxTree.stubParts, List.mem_cons, List.not_mem_nil, or_false] at h
  rcases h with rfl | rfl | rfl | rfl | rfl <;> exact ⟨rfl, rfl, rfl, rfl, rfl⟩

namespace SyntaxTree

variable {t u u' e : SyntaxTree}

structure Grown (t u : SyntaxTree) (body : Nat) (name : String) : Prop where
  origin_eq : u.origin = t.origin
  source_eq : u.source = t.source
  size_eq : u.size = t.size + 6
  frame : ∀ i < t.size, i ≠ body → u.node i = t.node i
  body_eq : u.node body =
    { t.node body with children := (t.children body).insertIdx (t.closingIndex body) t.size }
  stub : u.StubAt body t.size name

theorem closingIndex_congr (hc : u.children body = t.children body)
    (hk : ∀ c ∈ t.children body, u.kind c = t.kind c) :
    u.closingIndex body = t.closingIndex body := by
  have hmap : ∀ (v : SyntaxTree) (l : List Nat), (l.findIdx? fun c => v.kind c == "\x7d") =
      (l.map v.kind).findIdx? (· == "\x7d") :=
    fun v l => by rw [List.findIdx?_map]; rfl
  have hkinds : (t.children body).reverse.map u.kind = (t.children body).reverse.map t.kind :=
    List.map_congr_left fun c hm => hk c (List.mem_reverse.mp hm)
  simp only [closingIndex, hmap, hc, hkinds]

theorem origin_pushStub (t : SyntaxTree) (name : String) :
    (t.pushStub name).origin = t.origin := by
  have hfold : ∀ (parts : List SyntaxNode) (u : SyntaxTree),
      (parts.foldl (fun u n => u.pushChild t.size n) u).origin = u.origin := by
    intro parts
    induction parts with
    | nil => exact fun _ => rfl
    | cons n parts ih => exact fun u => ih (u.pushChild t.size n)
  exact hfold _ _

theorem grown_addStub (h : t.Ascending) (hb : body < t.size) (name : String) :
    t.Grown (addStub body t name) body name := by
  have hp := pushed_pushStub t name
  have hindex : (t.pushStub name).closingIndex body = t.closingIndex body := by
    refine closingIndex_congr (by rw [children, hp.frame body hb]; rfl) ?_
    intro c hc
    rw [kind, hp.frame c (h body c hc).2]
    rfl
  have ho := t.origin_pushStub name
  change t.Grown ((t.pushStub name).insertChild body ((t.pushStub name).closingIndex body) t.size)
    body name
  rw [hindex]
  generalize t.pushStub name = u at hp ho
  have hsize := hp.size_eq
  refine ⟨ho, hp.source_eq, by rw [size_insertChild, hsize], ?_, ?_, hp.stubAt hb _⟩
  · intro i hi hne
    rw [node_insertChild_of_ne hne (by omega), hp.frame i hi]
  · rw [node_insertChild_parent (by omega) (by omega), children, hp.frame body hb]
    rfl

theorem StubAt.node_eq (h : StubAt t body a name) (h' : StubAt u body a name) (hi : a ≤ i)
    (hj : i < a + 6) : t.node i = u.node i := by
  by_cases he : i = a
  · rw [he, h.head, h'.head]
  · obtain ⟨j, n, rfl, hn⟩ := exists_stubPart (by omega) hj name
    rw [h.part j n hn, h'.part j n hn]

theorem Grown.unique (h : t.Grown u body name) (h' : t.Grown u' body name) : u = u' := by
  refine ext_node (h.origin_eq.trans h'.origin_eq.symm) (h.source_eq.trans h'.source_eq.symm)
    (h.size_eq.trans h'.size_eq.symm) ?_
  intro i hi
  rw [h.size_eq] at hi
  by_cases hb : i = body
  · rw [hb, h.body_eq, h'.body_eq]
  · by_cases hlt : i < t.size
    · rw [h.frame i hlt hb, h'.frame i hlt hb]
    · exact h.stub.node_eq h'.stub (Nat.le_of_not_lt hlt) hi

theorem Grown.replaceWithText (h : t.Grown u body name) (hc : c < t.size) (hne : c ≠ body)
    (x : String) : (t.replaceWithText c x).Grown (u.replaceWithText c x) body name := by
  have hbody := node_replaceWithText_of_ne (t := t) hne.symm x
  have hchildren := children_replaceWithText_of_ne (t := t) hne.symm x
  have hsize := h.size_eq
  refine ⟨h.origin_eq, h.source_eq, ?_, ?_, ?_, ?_⟩
  · rw [size_replaceWithText, size_replaceWithText, hsize]
  · intro i hi hib
    rw [size_replaceWithText] at hi
    by_cases he : i = c
    · subst he
      rw [node_replaceWithText_self (by omega), node_replaceWithText_self hi, h.frame i hi hib]
    · rw [node_replaceWithText_of_ne he, node_replaceWithText_of_ne he, h.frame i hi hib]
  · rw [node_replaceWithText_of_ne hne.symm, h.body_eq, hbody, hchildren, size_replaceWithText,
      closingIndex_congr hchildren fun _ _ => kind_replaceWithText ..]
  · rw [size_replaceWithText]
    apply h.stub.congr
    intro i hi _
    exact node_replaceWithText_of_ne (by omega) x

/-- Adding a stub to a body and putting a text in place of another node can be done in any order. -/
theorem addStub_replaceWithText (h : t.Ascending) (hb : body < t.size) (hc : c < t.size)
    (hne : c ≠ body) (x name : String) :
    addStub body (t.replaceWithText c x) name = (addStub body t name).replaceWithText c x := by
  have hb' : body < (t.replaceWithText c x).size := by rwa [size_replaceWithText]
  have hgrown := grown_addStub (ascending_replaceWithText h c x) hb' name
  -- Both sides are the edited tree with the stub added, and that is only one tree.
  exact hgrown.unique ((grown_addStub h hb name).replaceWithText hc hne x)

theorem Grown.ascending (h : t.Grown u body name) (ht : t.Ascending) (hb : body < t.size) :
    u.Ascending := by
  intro i c hc
  have hsize := h.size_eq
  have hi := lt_size_of_mem_children hc
  by_cases hib : i = body
  · subst i
    rw [children, h.body_eq] at hc
    rcases List.eq_or_mem_of_mem_insertIdx hc with rfl | hc
    · omega
    · have := ht body c hc
      omega
  · by_cases hlt : i < t.size
    · rw [children, h.frame i hlt hib] at hc
      have := ht i c hc
      omega
    · have := h.stub.child_of_mem (Nat.le_of_not_lt hlt) (by omega) hc
      omega

theorem addStub_replaceAll (h : t.Ascending) (hb : body < t.size)
    (hes : ∀ e ∈ edits, e.1 < t.size ∧ e.1 ≠ body) (name : String) :
    addStub body (t.replaceAll edits) name = (addStub body t name).replaceAll edits := by
  induction edits generalizing t with
  | nil => rfl
  | cons e edits ih =>
    obtain ⟨hlt, hne⟩ := hes e List.mem_cons_self
    have hsize := size_replaceWithText t e.1 e.2
    have htail := ih (ascending_replaceWithText h e.1 e.2) (hsize ▸ hb) fun e' he =>
      hsize ▸ hes e' (List.mem_cons_of_mem _ he)
    rw [replaceAll_cons, htail, addStub_replaceWithText h hb hlt hne, replaceAll_cons]

def addStubs (t : SyntaxTree) (body? : Option Nat) (names : List String) : SyntaxTree :=
  match body? with
  | some body => names.foldl (addStub body) t
  | none => t

theorem addStubs_append (t : SyntaxTree) (body? : Option Nat) (a b : List String) :
    t.addStubs body? (a ++ b) = (t.addStubs body? a).addStubs body? b := by
  cases body? with
  | none => rfl
  | some body => exact List.foldl_append

theorem foldl_addStub_replaceAll (h : t.Ascending) (hb : body < t.size)
    (hes : ∀ e ∈ edits, e.1 < t.size ∧ e.1 ≠ body) (names : List String) :
    names.foldl (addStub body) (t.replaceAll edits) =
      (names.foldl (addStub body) t).replaceAll edits := by
  induction names generalizing t with
  | nil => rfl
  | cons name names ih =>
    have hg := grown_addStub h hb name
    have hle : t.size ≤ (addStub body t name).size := by
      rw [hg.size_eq]
      omega
    have htail := ih (hg.ascending h hb) (Nat.lt_of_lt_of_le hb hle) fun e he =>
      ⟨Nat.lt_of_lt_of_le (hes e he).1 hle, (hes e he).2⟩
    rw [List.foldl_cons, List.foldl_cons, addStub_replaceAll h hb hes, htail]

theorem addStubs_replaceAll (h : t.Ascending) (hb : ∀ body ∈ body?, body < t.size)
    (hes : ∀ e ∈ edits, e.1 < t.size ∧ e.1 ∉ body?) (names : List String) :
    (t.replaceAll edits).addStubs body? names = (t.addStubs body? names).replaceAll edits := by
  cases body? with
  | none => rfl
  | some body =>
    refine foldl_addStub_replaceAll h (hb body rfl) ?_ names
    intro e he
    exact ⟨(hes e he).1, fun heq => (hes e he).2 (heq ▸ rfl)⟩

theorem Altered.replaceAll (h : t.Altered e) (hes : ∀ x ∈ edits, x.1 < e.size) :
    t.Altered (e.replaceAll edits) := by
  induction edits generalizing e with
  | nil => exact h
  | cons x edits ih =>
    rw [replaceAll_cons]
    refine ih (h.tail (.replace (hes x List.mem_cons_self) x.2)) ?_
    rw [size_replaceWithText]
    exact fun y hy => hes y (List.mem_cons_of_mem _ hy)

theorem preorderFrom_of_children (h : t.children i = []) : t.preorderFrom i = [i] := by
  rw [preorderFrom, preorderTo, h]
  rfl

theorem Altered.pushChild {n : SyntaxNode} (h : t.Altered e) (hle : t.size ≤ e.size)
    (hp : parent < e.size) (hn : n.IsNew) : t.Altered (e.pushChild parent n) := by
  have hpush := h.tail (.push hn)
  have hself := e.node_push_self n
  refine hpush.tail (.insert ?_ ?_ hle ?_ ?_ (Nat.le_refl _))
  · rw [size_push]
    omega
  · rw [size_push]
    omega
  · rw [hself, hn.parent]
  · rw [preorderFrom_of_children (by rw [children, hself, hn.children]), List.mem_singleton]
    exact Nat.ne_of_lt hp

theorem Altered.pushStub (h : t.Altered e) (hle : t.size ≤ e.size) (name : String) :
    t.Altered (e.pushStub name) := by
  have hfold : ∀ (parts : List SyntaxNode) (v : SyntaxTree), t.Altered v → e.size < v.size →
      (∀ n ∈ parts, n.IsNew) →
      t.Altered (parts.foldl (fun v n => v.pushChild e.size n) v) := by
    intro parts
    induction parts with
    | nil => exact fun v hv _ _ => hv
    | cons n parts ih =>
      intro v hv hlt hn
      refine ih _ (hv.pushChild (by omega) hlt (hn n List.mem_cons_self)) ?_ ?_
      · rw [size_pushChild]
        omega
      · exact fun n hm => hn n (List.mem_cons_of_mem _ hm)
  refine hfold _ _ (h.tail (.push (SyntaxNode.isNew_branch _))) ?_ fun n hn => isNew_stubParts hn
  rw [size_push]
  exact Nat.lt_succ_self _

theorem Pushed.ascending (h : t.Pushed e name) (ht : t.Ascending) : e.Ascending := by
  intro i c hc
  have hsize := h.size_eq
  have hi := lt_size_of_mem_children hc
  by_cases hlt : i < t.size
  · rw [children, h.frame i hlt] at hc
    have := ht i c hc
    omega
  · by_cases he : i = t.size
    · rw [he, children, h.head, List.mem_range'_1] at hc
      omega
    · have hgt : t.size < i := by omega
      obtain ⟨j, n, rfl, hn⟩ := exists_stubPart hgt (by omega) name
      rw [children, h.part j n hn, stubParts_children hn] at hc
      cases hc

theorem closingIndex_le (t : SyntaxTree) (body : Nat) :
    t.closingIndex body ≤ (t.children body).length := by
  simp only [closingIndex]
  split <;> omega

theorem Ascending.le_of_mem_preorderFrom (h : t.Ascending) (hi : i < t.size)
    (hx : x ∈ t.preorderFrom i) : i ≤ x := by
  have hle := h.ranked.height_le i x hx
  omega

theorem Altered.addStub (h : t.Altered e) (ha : e.Ascending) (hle : t.size ≤ e.size)
    (hb : body < e.size) (name : String) : t.Altered (addStub body e name) := by
  have hp := pushed_pushStub e name
  have hsize := hp.size_eq
  refine (h.pushStub hle name).tail (.insert ?_ ?_ hle ?_ ?_ (closingIndex_le ..))
  · omega
  · omega
  · rw [hp.head]
    rfl
  · intro hm
    have := (hp.ascending ha).le_of_mem_preorderFrom (by omega) hm
    omega

theorem addStubs_induction {P : SyntaxTree → Prop} (ha : t.Ascending)
    (hb : ∀ body ∈ body?, body < t.size) (base : P t)
    (step : ∀ s body name, s.Ascending → t.size ≤ s.size → body ∈ body? → body < s.size → P s →
      P (addStub body s name)) (names : List String) : P (t.addStubs body? names) := by
  cases body? with
  | none => exact base
  | some body =>
    have hfold : ∀ (names : List String) (s : SyntaxTree), s.Ascending → t.size ≤ s.size → P s →
        P (names.foldl (addStub body) s) := by
      intro names
      induction names with
      | nil => exact fun s _ _ hs => hs
      | cons name names ih =>
        intro s hs hle hP
        have hlt := Nat.lt_of_lt_of_le (hb body rfl) hle
        have hg := grown_addStub hs hlt name
        have hle' : t.size ≤ (SyntaxTree.addStub body s name).size := by
          rw [hg.size_eq]
          omega
        have hstep := step s body name hs hle rfl hlt hP
        rw [List.foldl_cons]
        exact ih _ (hg.ascending hs hlt) hle' hstep
    exact hfold names t ha (Nat.le_refl _) base

theorem Altered.addStubs (h : t.Altered e) (ha : e.Ascending) (hle : t.size ≤ e.size)
    (hb : ∀ body ∈ body?, body < e.size) (names : List String) :
    t.Altered (e.addStubs body? names) :=
  addStubs_induction ha hb h
    (fun _ _ name hs hle' _ hlt hP => hP.addStub hs (Nat.le_trans hle hle') hlt name) names

theorem node_addStubs (h : t.Ascending) (hi : i < t.size) (hb : ∀ body ∈ body?, body < t.size)
    (hne : i ∉ body?) (names : List String) : (t.addStubs body? names).node i = t.node i := by
  refine addStubs_induction (P := fun s => s.node i = t.node i) h hb rfl ?_ names
  intro s body name hs hle hm hlt hP
  rw [(grown_addStub hs hlt name).frame i (Nat.lt_of_lt_of_le hi hle), hP]
  rintro rfl
  exact hne hm

end SyntaxTree

end Scaffold
