import Scaffold.Proofs.Merge.Growth

namespace Scaffold
set_option autoImplicit true

namespace SyntaxTree

variable {t s v : SyntaxTree}

def declaredFrom (t : SyntaxTree) (i : Nat) : List Nat :=
  (t.preorderFrom i).filter t.isDeclaration

theorem lt_size_of_isDeclaration (h : t.isDeclaration i = true) : i < t.size := by
  by_contra hlt
  rw [isDeclaration, kind, node_of_size_le (Nat.le_of_not_lt hlt)] at h
  exact absurd h (by decide)

theorem mem_declaredFrom : i ∈ t.declaredFrom r ↔ i ∈ t.preorderFrom r ∧ t.isDeclaration i = true :=
  List.mem_filter

/-- What is left of a tree by edits that touch the names and bodies of declarations only. -/
structure Alike (t s : SyntaxTree) : Prop where
  size_le : t.size ≤ s.size
  ascending : s.Ascending
  kind_eq : ∀ i < t.size, s.kind i = t.kind i
  childByField_eq : ∀ i < t.size, t.isDeclaration i = true → ∀ f,
    s.childByField i f = t.childByField i f
  declared_eq : ∀ i < t.size, s.declaredFrom i = t.declaredFrom i

theorem Alike.refl (h : t.Ascending) : Alike t t :=
  ⟨Nat.le_refl _, h, fun _ _ => rfl, fun _ _ _ _ => rfl, fun _ _ => rfl⟩

theorem Alike.isDeclaration_eq (h : Alike t s) (hi : i < t.size) :
    s.isDeclaration i = t.isDeclaration i := by
  rw [isDeclaration, isDeclaration, h.kind_eq i hi]

theorem Alike.trans (h : Alike t s) (h' : Alike s v) : Alike t v where
  size_le := Nat.le_trans h.size_le h'.size_le
  ascending := h'.ascending
  kind_eq i hi := (h'.kind_eq i (Nat.lt_of_lt_of_le hi h.size_le)).trans (h.kind_eq i hi)
  childByField_eq i hi hd f := by
    have hd' : s.isDeclaration i = true := by rwa [h.isDeclaration_eq hi]
    rw [h'.childByField_eq i (Nat.lt_of_lt_of_le hi h.size_le) hd', h.childByField_eq i hi hd]
  declared_eq i hi :=
    (h'.declared_eq i (Nat.lt_of_lt_of_le hi h.size_le)).trans (h.declared_eq i hi)

theorem declaredFrom_eq (h : t.Ascending) (i : Nat) :
    t.declaredFrom i = (if t.isDeclaration i then [i] else []) ++
      (t.children i).flatMap t.declaredFrom := by
  rw [declaredFrom, h.ranked.preorderFrom_eq, List.filter_cons, List.filter_flatMap]
  split <;> rfl

/-- Two trees declare the same at and below a node if this holds of each step downwards. -/
theorem declaredFrom_congr (ht : t.Ascending) (hs : s.Ascending)
    (hd : ∀ i < t.size, s.isDeclaration i = t.isDeclaration i)
    (step : ∀ i < t.size, (∀ c ∈ t.children i, s.declaredFrom c = t.declaredFrom c) →
      (s.children i).flatMap s.declaredFrom = (t.children i).flatMap t.declaredFrom)
    (i : Nat) : i < t.size → s.declaredFrom i = t.declaredFrom i := by
  induction i using ht.induction with
  | step i ih =>
    intro hi
    have hbelow := step i hi fun c hc => ih c hc (ht i c hc).2
    rw [declaredFrom_eq hs, declaredFrom_eq ht, hd i hi, hbelow]

theorem declared_of_declaredFrom_nil (h : t.Ascending) (hplain : t.declaredFrom c = []) :
    t.isDeclaration c = false ∧ (t.children c).flatMap t.declaredFrom = [] := by
  rw [declaredFrom_eq h, List.append_eq_nil_iff] at hplain
  refine ⟨?_, hplain.2⟩
  by_contra hd
  rw [Bool.not_eq_false] at hd
  simp [hd] at hplain

theorem alike_replaceWithText (h : t.Ascending) (hplain : t.declaredFrom c = []) (x : String) :
    Alike t (t.replaceWithText c x) := by
  obtain ⟨hc, hbelow⟩ := declared_of_declaredFrom_nil h hplain
  have hsize := Nat.le_of_eq (size_replaceWithText t c x).symm
  have ha := ascending_replaceWithText h c x
  refine ⟨hsize, ha, fun i _ => kind_replaceWithText .., ?_, ?_⟩
  · intro i _ hd f
    have hne : i ≠ c := by
      rintro rfl
      rw [hc] at hd
      cases hd
    rw [childByField, childByField, children_replaceWithText_of_ne hne]
    apply List.find?_congr
    intro d _
    rw [field_replaceWithText]
  · apply declaredFrom_congr h ha
    · intro i _
      rw [isDeclaration, isDeclaration, kind_replaceWithText]
    · intro i _ ih
      by_cases he : i = c
      · rw [he, children_replaceWithText_self, hbelow]
        rfl
      · rw [children_replaceWithText_of_ne he]
        exact List.flatMap_congr ih

theorem flatMap_insertIdx {f : α → List β} (hx : f x = []) (l : List α) (k : Nat) :
    (l.insertIdx k x).flatMap f = l.flatMap f := by
  induction l generalizing k with
  | nil => cases k <;> simp [List.insertIdx_succ_nil, hx]
  | cons y l ih =>
    cases k with
    | zero => simp [hx]
    | succ k => rw [List.insertIdx_succ_cons, List.flatMap_cons, List.flatMap_cons, ih]

theorem StubAt.declaredFrom_eq (h : StubAt t body a name) (ht : t.Ascending) :
    t.declaredFrom a = [] := by
  rw [declaredFrom, List.filter_eq_nil_iff]
  intro x hx
  have hb := h.bounds_of_mem_preorderFrom ht a (Nat.le_refl _) (by omega) x hx
  have hk := h.kind_mem hb.1 hb.2
  simp only [stubKinds, List.mem_cons, List.not_mem_nil, or_false] at hk
  rw [isDeclaration]
  rcases hk with hk | hk | hk | hk | hk | hk <;> simp [hk]

theorem Grown.kind_eq (h : t.Grown s body name) (hi : i < t.size) : s.kind i = t.kind i := by
  by_cases hb : i = body
  · rw [hb, kind, h.body_eq]
    rfl
  · rw [kind, h.frame i hi hb]
    rfl

theorem Grown.field_eq (h : t.Grown s body name) (hi : i < t.size) :
    (s.node i).field = (t.node i).field := by
  by_cases hb : i = body
  · rw [hb, h.body_eq]
  · rw [h.frame i hi hb]

theorem Grown.children_body (h : t.Grown s body name) :
    s.children body = (t.children body).insertIdx (t.closingIndex body) t.size := by
  rw [children, h.body_eq]

theorem Grown.children_of_ne (h : t.Grown s body name) (hi : i < t.size) (hne : i ≠ body) :
    s.children i = t.children i := by
  rw [children, h.frame i hi hne]
  rfl

theorem Grown.childByField_eq (h : t.Grown s body name) (ht : t.Ascending) (hi : i < t.size)
    (f : String) : s.childByField i f = t.childByField i f := by
  have hold : (t.children i).find? (fun c => (s.node c).field == some f) =
      t.childByField i f := by
    apply List.find?_congr
    intro c hc
    rw [h.field_eq (ht i c hc).2]
  rw [← hold, childByField]
  by_cases he : i = body
  · have hfield : (s.node t.size).field = none := by
      rw [h.stub.head]
      rfl
    rw [he, h.children_body, ← List.head?_filter, filter_insertIdx (by simp [hfield]),
      List.head?_filter]
  · rw [h.children_of_ne hi he]

theorem Grown.alike (h : t.Grown s body name) (ht : t.Ascending) (hb : body < t.size) :
    Alike t s := by
  have ha := h.ascending ht hb
  have hsize := h.size_eq
  refine ⟨by omega, ha, fun i hi => h.kind_eq hi, fun i hi _ f => h.childByField_eq ht hi f, ?_⟩
  apply declaredFrom_congr ht ha
  · intro i hi
    rw [isDeclaration, isDeclaration, h.kind_eq hi]
  · intro i hi ih
    rw [← List.flatMap_congr ih]
    by_cases he : i = body
    · rw [he, h.children_body, flatMap_insertIdx (h.stub.declaredFrom_eq ha)]
    · rw [h.children_of_ne hi he]

structure PlainName (t : SyntaxTree) (i : Nat) : Prop where
  lt_size : i < t.size
  field_eq : (t.node i).field = some "name"
  declared_eq : t.declaredFrom i = []

theorem Alike.replaceAll (h : Alike t s) (hes : ∀ e ∈ edits, t.PlainName e.1) :
    Alike t (s.replaceAll edits) := by
  induction edits generalizing s with
  | nil => exact h
  | cons e edits ih =>
    have hplain : s.declaredFrom e.1 = [] := by
      have hname := hes e List.mem_cons_self
      rw [h.declared_eq e.1 hname.lt_size, hname.declared_eq]
    rw [replaceAll_cons]
    exact ih (h.trans (alike_replaceWithText h.ascending hplain e.2)) fun e' he =>
      hes e' (List.mem_cons_of_mem _ he)

theorem Alike.addStubs (h : Alike t s) (hb : ∀ body ∈ body?, body < t.size)
    (names : List String) : Alike t (s.addStubs body? names) := by
  have hlt : ∀ body ∈ body?, body < s.size :=
    fun body hm => Nat.lt_of_lt_of_le (hb body hm) h.size_le
  refine addStubs_induction h.ascending hlt h ?_ names
  intro v body name hv _ _ hbody hP
  exact hP.trans ((grown_addStub hv hbody name).alike hv hbody)

theorem Alike.classes_eq (h : Alike t m) (hr : root < t.size) : m.classes = t.classes := by
  have hclasses : ∀ s : SyntaxTree, s.classes =
      (s.declaredFrom root).filter fun i => s.kind i == "class_declaration" := by
    intro s
    rw [classes, declaredFrom, List.filter_filter]
    apply List.filter_congr
    intro i _
    simp only [isDeclaration]
    cases s.kind i == "class_declaration" <;> simp
  rw [hclasses, hclasses, h.declared_eq root hr]
  apply List.filter_congr
  intro i hi
  rw [h.kind_eq i (lt_size_of_isDeclaration (mem_declaredFrom.mp hi).2)]

end SyntaxTree

end Scaffold
