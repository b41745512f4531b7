import Scaffold.Proofs.Merge.Update

namespace Scaffold.SyntaxTree
set_option autoImplicit true

variable {t m : SyntaxTree} {u : ClassUpdate} {target name body close : Nat}
  {front ids : List Nat}

theorem scopes_filter_skip {k : String → Bool} {rest : List Nat}
    (hk : ∀ a ∈ ids, t.kind a ≠ "namespace_definition")
    (hs : ∀ a ∈ ids, ∀ namesp, (t.sitesFrom a namesp).filter (fun s => k (t.kind s.1)) = [])
    (front : List Nat) (namesp : Option String) :
    ((t.scopes namesp (front ++ ids ++ rest)).flatMap fun s => t.sitesFrom s.1 s.2).filter
        (fun s => k (t.kind s.1)) =
      ((t.scopes namesp (front ++ rest)).flatMap fun s => t.sitesFrom s.1 s.2).filter
        (fun s => k (t.kind s.1)) := by
  induction front generalizing namesp with
  | nil =>
    rw [List.nil_append, List.nil_append]
    induction ids with
    | nil => rfl
    | cons a ids ih =>
      have hne := hk a List.mem_cons_self
      rw [List.cons_append, scopes, if_neg (by simpa using hne), List.flatMap_cons,
        List.filter_append, hs a List.mem_cons_self, List.nil_append]
      exact ih (fun b hb => hk b (List.mem_cons_of_mem _ hb))
        (fun b hb => hs b (List.mem_cons_of_mem _ hb))
  | cons c front ih =>
    rw [List.append_assoc, List.cons_append, List.cons_append, scopes, scopes,
      ← List.append_assoc]
    split
    · split
      · rw [List.flatMap_cons, List.flatMap_cons, List.filter_append, List.filter_append, ih]
      · exact ih _
    · rw [List.flatMap_cons, List.flatMap_cons, List.filter_append, List.filter_append, ih]

def stubKinds : List String :=
  ["method_declaration", "visibility_modifier", "function", "name", "formal_parameters",
    "compound_statement"]

theorem StubAt.kind_mem (h : StubAt t body a n) (hi : a ≤ i) (hj : i < a + 6) :
    t.kind i ∈ stubKinds := by
  by_cases he : i = a
  · subst i
    rw [kind, h.head]
    exact List.mem_cons_self
  · obtain ⟨j, part, rfl, hpart⟩ := exists_stubPart (by omega) hj n
    have hmem : ∀ p ∈ stubParts n, p.kind ∈ stubKinds := by
      intro p hp
      simp only [stubParts, List.mem_cons, List.not_mem_nil, or_false] at hp
      rcases hp with rfl | rfl | rfl | rfl | rfl <;>
        simp [stubKinds, SyntaxNode.leaf, SyntaxNode.anonymous, SyntaxNode.withField]
    rw [kind, h.part j part hpart]
    exact hmem part (List.mem_of_getElem? hpart)

theorem StubAt.bounds_of_mem_preorderFrom (h : StubAt t body a n) (ht : t.Ascending) (i : Nat) :
    a ≤ i → i < a + 6 → ∀ x ∈ t.preorderFrom i, a ≤ x ∧ x < a + 6 := by
  induction i using ht.induction with
  | step i ih =>
    intro hi hj x hx
    rw [ht.ranked.preorderFrom_eq, List.mem_cons, List.mem_flatMap] at hx
    rcases hx with rfl | ⟨c, hc, hx⟩
    · exact ⟨hi, hj⟩
    · have hlt := h.child_of_mem hi hj hc
      exact ih c hc (by omega) hlt.2 x hx

theorem StubAt.sites_filter {k : String → Bool} (h : StubAt t body a n) (ht : t.Ascending)
    (hk : ∀ x ∈ stubKinds, k x = false) (namesp : Option String) :
    (t.sitesFrom a namesp).filter (fun s => k (t.kind s.1)) = [] := by
  apply sitesFrom_filter_eq_nil ht.ranked
  intro x hx
  have hb := h.bounds_of_mem_preorderFrom ht a (Nat.le_refl _) (by omega) x hx
  exact hk _ (h.kind_mem hb.1 hb.2)

namespace Updated

theorem kind_eq (h : Updated t m u name body front close ids) (hi : i < t.size) :
    m.kind i = t.kind i := by
  rcases h.node_cases hi with ⟨_, _, hn⟩ | ⟨_, hn⟩ | ⟨_, hn⟩ <;>
    exact (congrArg SyntaxNode.kind hn).trans rfl

theorem field_eq (h : Updated t m u name body front close ids) (hi : i < t.size) :
    (m.node i).field = (t.node i).field := by
  rcases h.node_cases hi with ⟨_, _, hn⟩ | ⟨_, hn⟩ | ⟨_, hn⟩ <;>
    exact (congrArg SyntaxNode.field hn).trans rfl

theorem ascending_update (h : Updated t m u name body front close ids)
    (hc : ClassAt t target name body front close) (hp : Preordered t) : m.Ascending := by
  intro i c hm
  by_cases hi : i < t.size
  · have hle := h.size_le
    have hold : c ∈ t.children i → i < c ∧ c < m.size := by
      intro hm
      have hlt := hp.ascending i c hm
      omega
    rcases h.node_cases hi with ⟨_, _, hn⟩ | ⟨rfl, hn⟩ | ⟨_, hn⟩ <;> rw [children, hn] at hm
    · cases hm
    · rw [hc.children_eq] at hold
      simp only [List.mem_append] at hm hold
      rcases hm with (hm | hm) | hm
      · exact hold (.inl hm)
      · have hfresh := h.fresh c hm
        omega
      · exact hold (.inr hm)
    · exact hold hm
  · exact h.ascending i (Nat.le_of_not_lt hi) c hm

theorem children_declaration (h : Updated t m u name body front close ids)
    (hc : ClassAt t target name body front close) (hp : Preordered t) (hs : PhpShaped t)
    (hi : i < t.size) (hd : t.isDeclaration i = true) : m.children i = t.children i := by
  refine congrArg SyntaxNode.children (h.node_of_unnamed hc hi ?_ ?_)
  · intro d hd' hn
    have hplain := hs.name_plain hp hd' hn
    rw [hd] at hplain
    cases hplain
  · rintro rfl
    simp [isDeclaration, hc.body_kind] at hd

theorem childByField_of_children (h : Updated t m u name body front close ids)
    (hp : Preordered t) (hcs : m.children i = t.children i) (f : String) :
    m.childByField i f = t.childByField i f := by
  rw [childByField, childByField, hcs]
  apply List.find?_congr
  intro c hm
  rw [h.field_eq (hp.ascending i c hm).2]

def renamed (namesp : String) (old : Option String) : Option String :=
  old.map fun _ => cleanNamespace namesp

theorem namedNamespace_eq (h : Updated t m u name body front close ids)
    (hc : ClassAt t target name body front close) (hp : Preordered t) (hs : PhpShaped t)
    (hi : i < t.size) (hk : t.kind i = "namespace_definition") :
    m.namedNamespace i = renamed u.namesp (t.namedNamespace i) := by
  have hcs := h.children_declaration hc hp hs hi (isDeclaration_of_namespace hk)
  rw [namedNamespace, namedNamespace, h.childByField_of_children hp hcs]
  cases hn : t.childByField i "name" with
  | none => rfl
  | some n =>
    have hns : t.isNamespaceName n = true :=
      namedBy_iff.mpr ⟨i, hp.mem_preorder.mpr hi, hk, hn⟩
    have htext : m.text n = u.namesp := by
      rw [text, textTo, h.namespace_eq n hns]
      rfl
    rw [Option.map_some, htext]
    rfl

def rebase (namesp : String) (s : Nat × Option String) : Nat × Option String :=
  (s.1, renamed namesp s.2)

/-- The sites of some kinds at and below a node are the same but for their namespaces. -/
def Rebased (t m : SyntaxTree) (namesp : String) (k : String → Bool) (i : Nat) : Prop :=
  ∀ n, (m.sitesFrom i (renamed namesp n)).filter (fun s => k (m.kind s.1)) =
    ((t.sitesFrom i n).filter fun s => k (t.kind s.1)).map (rebase namesp)

theorem scopes_rebased (h : Updated t m u name body front close ids)
    (hc : ClassAt t target name body front close) (hp : Preordered t) (hs : PhpShaped t)
    (hcs : ∀ c ∈ cs, c < t.size ∧ Rebased t m u.namesp k c ∧
      ∀ d ∈ t.children c, Rebased t m u.namesp k d) (n : Option String) :
    ((m.scopes (renamed u.namesp n) cs).flatMap fun s => m.sitesFrom s.1 s.2).filter
        (fun s => k (m.kind s.1)) =
      (((t.scopes n cs).flatMap fun s => t.sitesFrom s.1 s.2).filter
        fun s => k (t.kind s.1)).map (rebase u.namesp) := by
  induction cs generalizing n with
  | nil => rfl
  | cons c cs ih =>
    have htail := ih fun d hd => hcs d (List.mem_cons_of_mem _ hd)
    obtain ⟨hlt, hreb, hd⟩ := hcs c List.mem_cons_self
    rw [scopes, scopes, h.kind_eq hlt]
    split
    · rename_i hk
      rw [beq_iff_eq] at hk
      have hchildren := h.children_declaration hc hp hs hlt (isDeclaration_of_namespace hk)
      rw [h.childByField_of_children hp hchildren, h.namedNamespace_eq hc hp hs hlt hk]
      cases hb : t.childByField c "body" with
      | none => exact htail _
      | some b =>
        have hbody := hd b (mem_children_of_childByField hb) (t.namedNamespace c)
        simp only [List.flatMap_cons, List.filter_append, List.map_append, hbody, htail n]
    · simp only [List.flatMap_cons, List.filter_append, List.map_append, hreb n, htail n]

theorem rebased_name (h : Updated t m u name body front close ids)
    (hc : ClassAt t target name body front close) (hp : Preordered t)
    (hcs : m.children i = []) (hi : i < t.size)
    (hk : ∀ x ∈ t.preorderFrom i, k (t.kind x) = false) : Rebased t m u.namesp k i := by
  intro n
  have ham := h.ascending_update hc hp
  rw [sitesFrom_filter_eq_nil hp.ascending.ranked hk, sitesFrom_filter_eq_nil ham.ranked]
  · rfl
  · intro x hx
    rw [ham.ranked.preorderFrom_eq, hcs, List.flatMap_nil, List.mem_singleton] at hx
    subst hx
    rw [h.kind_eq hi]
    exact hk x (t.mem_preorderFrom_self x)

/-- The stubs among the children of the body are no sites of kinds that no part of a stub has. -/
theorem scopes_body {k : String → Bool} (h : Updated t m u name body front close ids)
    (hc : ClassAt t target name body front close) (hm : m.Ascending)
    (hstub : ∀ x ∈ stubKinds, k x = false) (n : Option String) :
    ((m.scopes n (m.children body)).flatMap fun s => m.sitesFrom s.1 s.2).filter
        (fun s => k (m.kind s.1)) =
      ((m.scopes n (t.children body)).flatMap fun s => m.sitesFrom s.1 s.2).filter
        (fun s => k (m.kind s.1)) := by
  have hcs : m.children body = front ++ ids ++ [close] := by rw [children, h.body_eq]
  rw [hcs, hc.children_eq]
  apply scopes_filter_skip
  · intro a ha
    obtain ⟨w, hw⟩ := h.exists_stubAt ha
    rw [kind, hw.head]
    simp [SyntaxNode.branch]
  · intro a ha n'
    obtain ⟨w, hw⟩ := h.exists_stubAt ha
    exact hw.sites_filter hm hstub n'

theorem rebased_of_scopes (h : Updated t m u name body front close ids)
    (hc : ClassAt t target name body front close) (hp : Preordered t) (hs : PhpShaped t)
    (hi : i < t.size)
    (hbelow : ∀ c ∈ t.children i, c < t.size ∧ Rebased t m u.namesp k c ∧
      ∀ d ∈ t.children c, Rebased t m u.namesp k d)
    (hscopes : ∀ n, ((m.scopes n (m.children i)).flatMap fun s => m.sitesFrom s.1 s.2).filter
        (fun s => k (m.kind s.1)) =
      ((m.scopes n (t.children i)).flatMap fun s => m.sitesFrom s.1 s.2).filter
        (fun s => k (m.kind s.1))) : Rebased t m u.namesp k i := by
  intro n
  rw [(h.ascending_update hc hp).ranked.sitesFrom_eq, hp.ascending.ranked.sitesFrom_eq,
    List.filter_cons, List.filter_cons, hscopes, h.scopes_rebased hc hp hs hbelow, h.kind_eq hi]
  split <;> rfl

/-- An extraction from the updated tree looks at the same nodes of some kinds, provided that
neither the names of declarations nor stubs have nodes of these kinds. -/
theorem rebased (h : Updated t m u name body front close ids)
    (hc : ClassAt t target name body front close) (hp : Preordered t) (hs : PhpShaped t)
    (hname : ∀ d, t.isDeclaration d = true → ∀ n, t.childByField d "name" = some n →
      ∀ x ∈ t.preorderFrom n, k (t.kind x) = false)
    (hstub : ∀ x ∈ stubKinds, k x = false) (i : Nat) : i < t.size → Rebased t m u.namesp k i := by
  induction i using hp.ascending.ranked.scope_induction with
  | step i ih =>
    intro hi
    have hbelow : ∀ c ∈ t.children i, c < t.size ∧ Rebased t m u.namesp k c ∧
        ∀ d ∈ t.children c, Rebased t m u.namesp k d := by
      intro c hm
      have hlt := (hp.ascending i c hm).2
      exact ⟨hlt, (ih c hm).1 hlt, fun d hd => (ih c hm).2 d hd (hp.ascending c d hd).2⟩
    rcases h.node_cases hi with ⟨_, hset, hn⟩ | ⟨rfl, _⟩ | ⟨_, hn⟩
    · obtain ⟨d, hd, hdn⟩ := hc.exists_declaration hset
      exact h.rebased_name hc hp (congrArg SyntaxNode.children hn) hi (hname d hd i hdn)
    · exact h.rebased_of_scopes hc hp hs hi hbelow
        (h.scopes_body hc (h.ascending_update hc hp) hstub)
    · refine h.rebased_of_scopes hc hp hs hi hbelow ?_
      intro n
      rw [children, hn]
      rfl

end Updated

end Scaffold.SyntaxTree
