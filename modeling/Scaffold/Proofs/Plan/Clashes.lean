import Scaffold.Proofs.Merge.Members
import Scaffold.Proofs.Plan.Names

namespace Scaffold
set_option autoImplicit true

variable {t m : SyntaxTree} {u : SyntaxTree.ClassUpdate} {target name body close : Nat}
  {front ids : List Nat}

namespace SyntaxTree

/-- The names of the methods that stand in a class, up to ASCII case. -/
def memberKeys (t : SyntaxTree) (i : Nat) : List String :=
  ((t.childByField i "body").map fun body =>
    ((t.childrenOfKind body "method_declaration").filterMap t.declaredName).map
      Text.asciiLower).getD []

theorem memberKeys_of_body (h : t.childByField i "body" = some body) :
    t.memberKeys i = ((t.childrenOfKind body "method_declaration").filterMap t.declaredName).map
      Text.asciiLower := by
  rw [memberKeys, h]
  rfl

theorem map_methodKey (h : t.childByField i "body" = some body) :
    ((t.childrenOfKind body "method_declaration").filterMap t.method?).map methodKey =
      t.memberKeys i := by
  rw [memberKeys_of_body h, List.map_filterMap, List.map_filterMap]
  congr 1
  funext c
  rw [method?, Option.map_map]
  rfl

def stubMethod (n : String) : Method :=
  ⟨n, .isPublic, false, false⟩

namespace Updated

variable {format : MethodFormat}

theorem memberKeys_eq (h : Updated t m u name body front close ids)
    (hc : ClassAt t target name body front close) (ht : Tiled t) (hs : PhpShaped t)
    (hu : ∀ n ∈ u.methods, Naming.Settled format n) :
    m.memberKeys target = t.memberKeys target ++ u.methods.map Text.asciiLower := by
  have hstubs : u.methods.filterMap
      (fun n => if (Text.trim n).isEmpty then none else some (Text.trim n)) = u.methods := by
    rw [List.filterMap_congr (g := some), List.filterMap_some]
    intro n hn
    rw [(hu n hn).trim_eq, if_neg (by simpa using (hu n hn).ne_empty)]
  have hmembers := h.filterMap_members (f := t.declaredName) (g := m.declaredName) hc
    ht.toPreordered (fun c hm hk => (h.sameBelow_member hc ht hm hk).declaredName_eq)
    (fun a n hstub => hstub.declaredName_eq)
  rw [memberKeys_of_body (h.childByField_body hc ht.toPreordered hs), memberKeys_of_body hc.body_eq,
    hmembers, hstubs, List.map_append]

theorem mem_methods (h : Updated t m u name body front close ids)
    (hc : ClassAt t target name body front close) (ht : Tiled t)
    (hu : ∀ n ∈ u.methods, Naming.Settled format n) :
    x ∈ m.methods body ↔ x ∈ t.methods body ∨ ∃ pre n post, u.methods = pre ++ n :: post ∧
      x = stubMethod n ∧ Text.asciiLower n ∉ t.memberKeys target ∧
      Text.asciiLower n ∉ pre.map Text.asciiLower := by
  have hstubs : u.methods.filterMap stubMethod? = u.methods.map stubMethod := by
    rw [← List.filterMap_eq_map]
    apply List.filterMap_congr
    intro n hn
    rw [stubMethod?, (hu n hn).trim_eq, if_neg (by simpa using (hu n hn).ne_empty)]
    rfl
  rw [h.methods_eq hc ht, mem_firstOfName_append, hstubs, map_methodKey hc.body_eq]
  refine or_congr Iff.rfl ?_
  constructor
  · rintro ⟨pre, post, he, hm, hp⟩
    obtain ⟨pre', rest, hpre, rfl, hrest⟩ := List.map_eq_append_iff.mp he
    obtain ⟨n, post', rfl, rfl, _⟩ := List.map_eq_cons_iff.mp hrest
    rw [List.map_map] at hp
    exact ⟨pre', n, post', hpre, rfl, hm, hp⟩
  · rintro ⟨pre, n, post, he, rfl, hm, hp⟩
    refine ⟨pre.map stubMethod, post.map stubMethod, by simp [he], hm, ?_⟩
    rw [List.map_map]
    exact hp

theorem mem_existingTests (h : Updated t m u name body front close ids)
    (hc : ClassAt t target name body front close) (ht : Tiled t) (hs : PhpShaped t)
    (hsc : Scoped t) (htarget : t.targetClass u.className = some target)
    (hn : Text.trim u.className ≠ "") (hu : ∀ n ∈ u.methods, Naming.Settled format n) :
    n ∈ m.existingTests u.className format ↔ n ∈ t.existingTests u.className format ∨
      ∃ pre post, u.methods = pre ++ n :: post ∧ Text.asciiLower n ∉ t.memberKeys target ∧
        Text.asciiLower n ∉ pre.map Text.asciiLower := by
  obtain ⟨d, hd, hdm⟩ := hc.exists_testClass? ht.toPreordered hsc htarget
  obtain ⟨d', hd', hdm'⟩ := h.exists_testClass? hc ht hs hsc htarget hn
  rw [SyntaxTree.mem_existingTests hd, SyntaxTree.mem_existingTests hd', hdm, hdm']
  constructor
  · rintro ⟨x, hx, hv, rfl, htest⟩
    rcases (h.mem_methods hc ht hu).mp hx with hx | ⟨pre, n, post, he, rfl, hm, hp⟩
    · exact .inl ⟨x, hx, hv, rfl, htest⟩
    · have hset := hu n (by simp [he])
      have hname : Naming.normalize format (stubMethod n).name = n := hset.normalize_eq
      rw [hname]
      exact .inr ⟨pre, post, he, hm, hp⟩
  · rintro (⟨x, hx, hv, hname, htest⟩ | ⟨pre, post, he, hm, hp⟩)
    · exact ⟨x, (h.mem_methods hc ht hu).mpr (.inl hx), hv, hname, htest⟩
    · have hset := hu n (by simp [he])
      refine ⟨stubMethod n, ?_, rfl, hset.normalize_eq, hset.is_test⟩
      exact (h.mem_methods hc ht hu).mpr (.inr ⟨pre, n, post, he, rfl, hm, hp⟩)

end Updated

end SyntaxTree

namespace TestPlan

/-- A missing test whose name clashes with a method of the class, or with a missing test before
it, is a test that the class has after all. -/
structure Clear (p : TestPlan) (className : String) (format : MethodFormat) (target : Nat) :
    Prop where
  members : ∀ n ∈ p.missing, Text.asciiLower n ∈ p.tree.memberKeys target →
    n ∈ p.tree.existingTests className format
  missing : p.missing.Pairwise fun a b => Text.asciiLower a = Text.asciiLower b →
    b ∈ p.tree.existingTests className format

theorem nodup_missing_against (t : SyntaxTree) (d : Declaration) (className : String)
    (format : MethodFormat) (fromFile : Bool) :
    (against t d className format fromFile).missing.Nodup :=
  (nodup_firstOccurrences [] _).filter _

theorem settled_of_mem_missing {d : Declaration}
    (h : n ∈ (against t d className format fromFile).missing) : Naming.Settled format n :=
  d.settled_of_mem_requiredTests (mem_missing.mp h).1

end TestPlan

theorem mem_of_pair_sublist {pre post : List α} (hb : b ∉ post)
    (h : [a, b].Sublist (pre ++ b :: post)) : a ∈ pre := by
  induction pre with
  | nil =>
    have hpost : [b].Sublist post := by
      cases h with
      | cons _ h => exact (List.sublist_cons_self a [b]).trans h
      | cons_cons _ h => exact h
    exact absurd (List.singleton_sublist.mp hpost) hb
  | cons c pre ih =>
    cases h with
    | cons _ h => exact List.mem_cons_of_mem _ (ih h)
    | cons_cons _ h => exact List.mem_cons_self

/-- In a list without repetitions, it is enough to know how each element compares to those before
its only place. -/
theorem pairwise_of_split {R : α → α → Prop} {l : List α} (hn : l.Nodup)
    (h : ∀ b ∈ l, ∃ pre post, l = pre ++ b :: post ∧ ∀ a ∈ pre, R a b) : l.Pairwise R := by
  rw [List.pairwise_iff_forall_sublist]
  intro a b hsub
  obtain ⟨pre, post, rfl, hR⟩ := h b (hsub.subset (by simp))
  have hb : b ∉ post := by
    rw [List.nodup_append, List.nodup_cons] at hn
    exact hn.2.1.1
  exact hR a (mem_of_pair_sublist hb hsub)

namespace SyntaxTree

variable {p : TestPlan}

theorem Updated.satisfied_iff (format : MethodFormat)
    (h : Updated t m u name body front close ids)
    (hc : ClassAt t target name body front close) (ht : Tiled t) (hs : PhpShaped t)
    (hsc : Scoped t) (htarget : t.targetClass u.className = some target)
    (hn : Text.trim u.className ≠ "") (hp : p.tree = t) (hu : u.methods = p.missing)
    (hset : ∀ n ∈ p.missing, Naming.Settled format n) (hnd : p.missing.Nodup)
    (he : ∀ n ∈ p.existing, n ∈ t.existingTests u.className format) :
    (∀ n ∈ p.required, n ∈ m.existingTests u.className format) ↔
      p.Clear u.className format target := by
  subst hp
  rw [← hu] at hset hnd
  have hmem {n} := h.mem_existingTests (n := n) hc ht hs hsc htarget hn hset
  constructor
  · intro hall
    have hmissing : ∀ n ∈ p.missing, n ∈ m.existingTests u.className format :=
      fun n hm => hall n (TestPlan.mem_missing.mp hm).1
    constructor
    · intro n hm hk
      rcases hmem.mp (hmissing n hm) with hold | ⟨_, _, _, hkeys, _⟩
      · exact hold
      · exact absurd hk hkeys
    · rw [← hu]
      apply pairwise_of_split hnd
      intro b hb
      rcases hmem.mp (hmissing b (hu ▸ hb)) with hold | ⟨pre, post, hsplit, _, hpre⟩
      · obtain ⟨pre, post, hsplit⟩ := List.append_of_mem hb
        exact ⟨pre, post, hsplit, fun _ _ _ => hold⟩
      · refine ⟨pre, post, hsplit, fun a ha hk => ?_⟩
        exact absurd (hk ▸ List.mem_map_of_mem ha) hpre
  · intro hclear n hr
    rw [hmem]
    by_cases hold : n ∈ p.tree.existingTests u.className format
    · exact .inl hold
    · have hm : n ∈ p.missing := TestPlan.mem_missing.mpr ⟨hr, fun hx => hold (he n hx)⟩
      obtain ⟨pre, post, hsplit⟩ := List.append_of_mem hm
      refine .inr ⟨pre, post, hu.trans hsplit, fun hk => hold (hclear.members n hm hk), ?_⟩
      intro hk
      obtain ⟨a, ha, hka⟩ := List.mem_map.mp hk
      have hpair := hclear.missing
      rw [hsplit, List.pairwise_append] at hpair
      exact hold (hpair.2.2 a ha n List.mem_cons_self hka)

/-- A second plan against the merged tree finds every test exactly if the first plan was clear. -/
theorem replan_satisfied_iff (origin source namesp className : String) (c : Concrete)
    (d : Declaration) (format : MethodFormat) (fromFile : Bool) (hw : c.WellFormed source)
    (hs : (c.lower origin source).PhpShaped) (hsc : (c.lower origin source).Scoped)
    (hc : (c.lower origin source).hasClass = true) (hn : Text.trim className ≠ "") :
    ∃ target m, (c.lower origin source).targetClass className = some target ∧
      (c.lower origin source).merge namesp className
        (TestPlan.against (c.lower origin source) d className format fromFile).missing = .ok m ∧
      ((∀ n ∈ d.requiredTests format, n ∈ m.existingTests className format) ↔
        (TestPlan.against (c.lower origin source) d className format fromFile).Clear
          className format target) ∧
      ((TestPlan.against m d className format true).isSatisfied = true ↔
        (TestPlan.against (c.lower origin source) d className format fromFile).Clear
          className format target) := by
  have ht := c.lower_tiled origin hw
  generalize c.lower origin source = t at ht hs hsc hc ⊢
  obtain ⟨target, m, name, body, front, close, ids, htarget, hm, hclass, hu⟩ :=
    hs.exists_updated ht.toPreordered hc namesp className
      (TestPlan.against t d className format fromFile).missing
  have hiff := hu.satisfied_iff format hclass ht hs hsc htarget hn rfl rfl
    (fun _ => TestPlan.settled_of_mem_missing) (TestPlan.nodup_missing_against ..) ?_
  · exact ⟨target, m, htarget, hm, hiff, TestPlan.isSatisfied_iff.trans hiff⟩
  · intro n hx
    cases fromFile with
    | false => cases hx
    | true => exact hx

/-- A class with two methods whose tests have one name up to case in camel case. -/
def clashing : Declaration where
  name := "B"
  namesp := some "A"
  kind := .isClass
  methods := [⟨"foobar", .isPublic, false, false⟩, ⟨"foo_bar", .isPublic, false, false⟩]
  span := none

theorem missing_clashing :
    (TestPlan.against (emptyClass.lower "B.php" emptyClassSource) clashing "BTest" .camel
      false).missing = ["testFoobar", "testFooBar"] := by
  decide +kernel

theorem replan_not_satisfied_clashing :
    ∃ m, (emptyClass.lower "B.php" emptyClassSource).merge "T" "BTest"
        ["testFoobar", "testFooBar"] = .ok m ∧
      ¬ (TestPlan.against m clashing "BTest" .camel true).isSatisfied = true := by
  have hsc : (emptyClass.lower "B.php" emptyClassSource).Scoped :=
    ⟨by decide +kernel, by decide +kernel⟩
  obtain ⟨target, m, _, hm, _, hiff⟩ :=
    replan_satisfied_iff "B.php" emptyClassSource "T" "BTest" emptyClass clashing .camel false
      (by decide) ⟨by decide, by decide, by decide⟩ hsc (by decide) (by decide)
  rw [missing_clashing] at hm
  refine ⟨m, hm, ?_⟩
  rw [hiff]
  intro hclear
  have hpair := hclear.missing
  rw [missing_clashing] at hpair
  revert hpair
  decide +kernel

/-- The members of the target are still distinct after a merge exactly if the missing tests are
distinct from each other and from the members, up to ASCII case. -/
theorem merged_members_distinct_iff (origin source namesp className : String) (c : Concrete)
    (d : Declaration) (format : MethodFormat) (fromFile : Bool) (hw : c.WellFormed source)
    (hs : (c.lower origin source).PhpShaped) (hc : (c.lower origin source).hasClass = true) :
    ∃ target m, (c.lower origin source).targetClass className = some target ∧
      (c.lower origin source).merge namesp className
        (TestPlan.against (c.lower origin source) d className format fromFile).missing = .ok m ∧
      (((c.lower origin source).memberKeys target).Nodup →
        ((m.memberKeys target).Nodup ↔
          ((TestPlan.against (c.lower origin source) d className format fromFile).missing.map
            Text.asciiLower).Nodup ∧
          ∀ n ∈ (TestPlan.against (c.lower origin source) d className format fromFile).missing,
            Text.asciiLower n ∉ (c.lower origin source).memberKeys target)) := by
  have ht := c.lower_tiled origin hw
  generalize c.lower origin source = t at ht hs hc ⊢
  obtain ⟨target, m, name, body, front, close, ids, htarget, hm, hclass, hu⟩ :=
    hs.exists_updated ht.toPreordered hc namesp className
      (TestPlan.against t d className format fromFile).missing
  refine ⟨target, m, htarget, hm, fun hnd => ?_⟩
  rw [hu.memberKeys_eq hclass ht hs fun _ => TestPlan.settled_of_mem_missing, List.nodup_append']
  constructor
  · rintro ⟨_, hmissing, hdis⟩
    exact ⟨hmissing, fun n hm hk => hdis hk (List.mem_map_of_mem hm)⟩
  · rintro ⟨hmissing, hdis⟩
    refine ⟨hnd, hmissing, ?_⟩
    intro k hk hk'
    obtain ⟨n, hm, rfl⟩ := List.mem_map.mp hk'
    exact hdis n hm hk

theorem merged_members_repeat_clashing :
    ∃ m, (emptyClass.lower "B.php" emptyClassSource).merge "T" "BTest"
        ["testFoobar", "testFooBar"] = .ok m ∧
      ((emptyClass.lower "B.php" emptyClassSource).memberKeys 5).Nodup ∧
      ¬ (m.memberKeys 5).Nodup := by
  have htarget : (emptyClass.lower "B.php" emptyClassSource).targetClass "BTest" = some 5 := by
    decide
  have hnd : ((emptyClass.lower "B.php" emptyClassSource).memberKeys 5).Nodup := by
    decide +kernel
  obtain ⟨target, m, ht, hm, hiff⟩ :=
    merged_members_distinct_iff "B.php" emptyClassSource "T" "BTest" emptyClass clashing .camel
      false (by decide) ⟨by decide, by decide, by decide⟩ (by decide)
  obtain rfl : target = 5 := Option.some.inj (ht.symm.trans htarget)
  rw [missing_clashing] at hm hiff
  refine ⟨m, hm, hnd, ?_⟩
  rw [hiff hnd]
  decide +kernel

end SyntaxTree

end Scaffold
