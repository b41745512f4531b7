import Mathlib.Algebra.Order.BigOperators.Group.List
import Mathlib.Algebra.Order.Ring.Nat
import Scaffold.Path
import Scaffold.Proofs.Text.Blank

namespace Scaffold
set_option autoImplicit true

/-- A name that can stand between two slashes and is not made of dots. -/
structure ProperName (n : String) : Prop where
  ne_empty : n ≠ ""
  ne_dot : n ≠ "."
  ne_dots : n ≠ ".."
  no_slash : '/' ∉ n.toList

namespace Path

theorem not_slash_iff {cs : List Char} : (∀ c ∈ cs, (c == '/') = false) ↔ '/' ∉ cs := by
  constructor
  · intro h hm
    exact absurd (h _ hm) (by decide)
  · intro h c hc
    rw [beq_eq_false_iff_ne]
    rintro rfl
    exact h hc

theorem no_slash_of_mem_pieces {p : Path} (h : w ∈ p.pieces) : '/' ∉ w.toList := by
  obtain ⟨cs, hcs, rfl⟩ := List.mem_map.mp h
  rw [String.toList_ofList, ← not_slash_iff]
  intro c hc
  exact (Text.mem_splitWhere hcs hc).1

theorem pieces_ne_nil (p : Path) : p.pieces ≠ [] := by
  rw [pieces, ne_eq, List.map_eq_nil_iff]
  exact Text.splitWhere_ne_nil _ _

theorem pieces_slash (s u : String) :
    (Path.mk (s ++ "/" ++ u)).pieces = (Path.mk s).pieces ++ (Path.mk u).pieces := by
  have htext : (s ++ "/" ++ u).toList = s.toList ++ '/' :: u.toList := by
    rw [String.append_assoc, String.toList_append, String.toList_append]
    rfl
  rw [pieces, pieces, pieces, htext, Text.splitWhere_append rfl, List.map_append]

theorem pieces_of_no_slash (h : '/' ∉ s.toList) : (Path.mk s).pieces = [s] := by
  rw [pieces, Text.splitWhere_of_none (not_slash_iff.mpr h), List.map_singleton,
    String.ofList_toList]

theorem pieces_append (h : '/' ∉ s.toList) (hu : (Path.mk u).pieces = w :: ws) :
    (Path.mk (s ++ u)).pieces = (s ++ w) :: ws := by
  obtain ⟨cs, css, hcs, rfl, rfl⟩ := List.map_eq_cons_iff.mp hu
  rw [pieces, String.toList_append, Text.splitWhere_append_of_none (not_slash_iff.mpr h) hcs,
    List.map_cons, String.ofList_append, String.ofList_toList]

theorem pieces_intercalate (hne : ws ≠ []) (h : ∀ w ∈ ws, '/' ∉ w.toList) :
    (Path.mk ("/".intercalate ws)).pieces = ws := by
  induction ws with
  | nil => exact absurd rfl hne
  | cons w ws ih =>
    have hw := h w List.mem_cons_self
    cases ws with
    | nil =>
      rw [String.intercalate_singleton]
      exact pieces_of_no_slash hw
    | cons v ws =>
      have htail := ih (List.cons_ne_nil _ _) fun x hx => h x (List.mem_cons_of_mem _ hx)
      rw [String.intercalate_cons_cons, pieces_slash, pieces_of_no_slash hw, htail]
      rfl

theorem pieces_of_isAbsolute {p : Path} (h : p.isAbsolute = true) :
    ∃ u, p.text = "/" ++ u ∧ p.pieces = "" :: (Path.mk u).pieces := by
  obtain ⟨cs, hcs⟩ := List.head?_eq_some_iff.mp (beq_iff_eq.mp h)
  have htext : p.text = "/" ++ String.ofList cs := by
    rw [← String.toList_inj, hcs, String.toList_append]
    exact (congrArg (List.cons '/') String.toList_ofList).symm
  refine ⟨.ofList cs, htext, ?_⟩
  have hslashed := pieces_slash "" (.ofList cs)
  rw [String.empty_append, ← htext] at hslashed
  exact hslashed

def anchor (p : Path) : List Component :=
  if p.isAbsolute then [.root] else if p.pieces.head? == some "." then [.here] else []

theorem components_eq (p : Path) : p.components = p.anchor ++ p.pieces.filterMap step? := by
  simp only [components, anchor]
  split
  · rfl
  · split <;> rfl

theorem step?_eq_some (h : step? w = some c) :
    (c = .up ∧ w = "..") ∨ (c = .name w ∧ w ≠ "" ∧ w ≠ "." ∧ w ≠ "..") := by
  unfold step? at h
  split at h
  · cases h
  · rename_i hw
    split at h
    · rename_i hup
      exact .inl ⟨(Option.some.inj h).symm, beq_iff_eq.mp hup⟩
    · rename_i hup
      simp only [Bool.or_eq_true, String.isEmpty_iff, beq_iff_eq, not_or] at hw
      exact .inr ⟨(Option.some.inj h).symm, hw.1, hw.2, by simpa using hup⟩

theorem step?_of_proper (h : ProperName n) : step? n = some (.name n) := by
  simp [step?, h.ne_empty, h.ne_dot, h.ne_dots]

/-- Behind its start a path has steps upwards and proper names only. -/
theorem step_cases {p : Path} (h : c ∈ p.pieces.filterMap step?) :
    c = .up ∨ ∃ n, c = .name n ∧ ProperName n := by
  obtain ⟨w, hw, hc⟩ := List.mem_filterMap.mp h
  rcases step?_eq_some hc with ⟨hup, _⟩ | ⟨hname, he, hd, hdd⟩
  · exact .inl hup
  · exact .inr ⟨w, hname, he, hd, hdd, no_slash_of_mem_pieces hw⟩

theorem mem_anchor {p : Path} (h : c ∈ p.anchor) : c = .root ∨ c = .here := by
  unfold anchor at h
  split at h
  · exact .inl (List.mem_singleton.mp h)
  · split at h
    · exact .inr (List.mem_singleton.mp h)
    · cases h

theorem proper_of_mem_components {p : Path} (h : Component.name n ∈ p.components) :
    ProperName n := by
  rw [components_eq, List.mem_append] at h
  rcases h with h | h
  · rcases mem_anchor h with h | h <;> cases h
  · rcases step_cases h with h | ⟨m, hm, hp⟩
    · cases h
    · cases hm
      exact hp

theorem isAbsolute_iff (p : Path) : p.isAbsolute = true ↔ p.components.head? = some .root := by
  rw [components_eq, anchor]
  split
  · rename_i h
    simp [h]
  · rename_i h
    have hsteps : (p.pieces.filterMap step?).head? ≠ some .root := by
      intro hr
      rcases step_cases (List.mem_of_head? hr) with hc | ⟨n, hc, _⟩ <;> cases hc
    split
    · simp [h]
    · simpa [h] using hsteps

section Join

variable {p q : Path}

theorem join_of_relative (h : q.isAbsolute = false) :
    p.join q = if p.text.isEmpty || p.text.toList.getLast? == some '/' then ⟨p.text ++ q.text⟩
      else ⟨p.text ++ "/" ++ q.text⟩ := by
  rw [join, if_neg (by simp [h])]

theorem exists_text_of_slash (h : p.text.toList.getLast? = some '/') :
    ∃ s, p.text = s ++ "/" := by
  obtain ⟨cs, hcs⟩ := List.getLast?_eq_some_iff.mp h
  refine ⟨.ofList cs, ?_⟩
  rw [← String.toList_inj, String.toList_append, String.toList_ofList, hcs]
  rfl

theorem isAbsolute_append (hp : p.text ≠ "") (s : String) :
    (Path.mk (p.text ++ s)).isAbsolute = p.isAbsolute := by
  have hne : p.text.toList ≠ [] := by simpa using hp
  rw [isAbsolute, isAbsolute, String.toList_append, List.head?_append_of_ne_nil _ hne]

theorem components_of_relative (h : q.isAbsolute = false) (hd : q.pieces.head? ≠ some ".") :
    q.components = q.pieces.filterMap step? := by
  rw [components_eq, anchor, if_neg (by simp [h]), if_neg (by simpa using hd)]
  rfl

theorem components_of_pieces {r : Path} (ha : r.isAbsolute = p.isAbsolute)
    (hr : r.pieces.head? = p.pieces.head?)
    (hs : r.pieces.filterMap step? = p.pieces.filterMap step? ++ cs) :
    r.components = p.components ++ cs := by
  rw [components_eq, components_eq p, anchor, anchor, ha, hr, hs, List.append_assoc]

/-- Joining a relative path that does not start with a dot keeps the start and adds the steps. -/
theorem components_join (h : q.isAbsolute = false) (hd : q.pieces.head? ≠ some ".") :
    (p.join q).components = p.components ++ q.components := by
  rw [components_of_relative h hd, join_of_relative h]
  by_cases hempty : p.text = ""
  · obtain ⟨text⟩ := p
    subst hempty
    have hq := components_of_relative h hd
    rw [← hq]
    exact congrArg components (congrArg mk String.empty_append)
  · by_cases hslash : p.text.toList.getLast? = some '/'
    · rw [if_pos (by simp [hslash])]
      obtain ⟨s, hs⟩ := exists_text_of_slash hslash
      -- The slash leaves an empty piece at the end, which is no step.
      have hp : p.pieces = (Path.mk s).pieces ++ [""] := by
        have hslashed := pieces_slash s ""
        rw [String.append_empty, ← hs] at hslashed
        exact hslashed
      have hpq : (Path.mk (p.text ++ q.text)).pieces = (Path.mk s).pieces ++ q.pieces := by
        rw [hs]
        exact pieces_slash s q.text
      refine components_of_pieces (isAbsolute_append hempty _) ?_ ?_
      · rw [hpq, hp, List.head?_append_of_ne_nil _ (pieces_ne_nil _),
          List.head?_append_of_ne_nil _ (pieces_ne_nil _)]
      · have hnone : [""].filterMap step? = [] := by decide
        rw [hpq, hp, List.filterMap_append, List.filterMap_append, hnone, List.append_nil]
    · rw [if_neg (by simp [hempty, hslash])]
      have hpq : (Path.mk (p.text ++ "/" ++ q.text)).pieces = p.pieces ++ q.pieces :=
        pieces_slash p.text q.text
      refine components_of_pieces ?_ ?_ ?_
      · rw [String.append_assoc]
        exact isAbsolute_append hempty _
      · rw [hpq, List.head?_append_of_ne_nil _ p.pieces_ne_nil]
      · rw [hpq, List.filterMap_append]

theorem components_join_name (h : ProperName n) :
    (p.join ⟨n⟩).components = p.components ++ [.name n] := by
  have hpieces : (Path.mk n).pieces = [n] := pieces_of_no_slash h.no_slash
  have habs : (Path.mk n).isAbsolute = false := by
    rw [isAbsolute, beq_eq_false_iff_ne]
    intro hr
    exact h.no_slash (List.mem_of_head? hr)
  have hdot : (Path.mk n).pieces.head? ≠ some "." := by
    rw [hpieces]
    simpa using h.ne_dot
  have hn : (Path.mk n).components = [.name n] := by
    rw [components_of_relative habs hdot, hpieces, List.filterMap_cons_some (step?_of_proper h)]
    rfl
  rw [components_join habs hdot, hn]

theorem components_foldl_join {ns : List String} (h : ∀ n ∈ ns, ProperName n) (p : Path) :
    (ns.foldl (fun q n => q.join ⟨n⟩) p).components = p.components ++ ns.map .name := by
  induction ns generalizing p with
  | nil => exact (List.append_nil _).symm
  | cons n ns ih =>
    rw [List.foldl_cons, ih fun m hm => h m (List.mem_cons_of_mem _ hm),
      components_join_name (h n List.mem_cons_self), List.append_assoc]
    rfl

end Join

/-- The names that a walk along a path follows; a slash at the end counts as a dot behind it. -/
def trail (p : Path) : List String :=
  if p.text.toList.getLast? == some '/' then p.pieces.filter (!·.isEmpty) ++ ["."]
  else p.pieces.filter (!·.isEmpty)

def walked : Component → Option String
  | .root | .here => none
  | .up => some ".."
  | .name n => some n

theorem bind_walked_step? (w : String) :
    (step? w).bind walked = if !w.isEmpty && w != "." then some w else none := by
  cases h : step? w with
  | none =>
    have hw : w = "" ∨ w = "." := by
      unfold step? at h
      split at h
      · rename_i hw
        simpa using hw
      · split at h <;> cases h
    rcases hw with rfl | rfl <;> rfl
  | some c =>
    rcases step?_eq_some h with ⟨rfl, rfl⟩ | ⟨rfl, he, hd, _⟩
    · rfl
    · simp [walked, he, hd]

theorem filter_trail (p : Path) :
    p.trail.filter (· != ".") = p.components.filterMap walked := by
  have hpieces : (p.pieces.filter (!·.isEmpty)).filter (· != ".") =
      (p.pieces.filterMap step?).filterMap walked := by
    rw [List.filterMap_filterMap, List.filter_filter, ← List.filterMap_eq_filter]
    congr 1
    funext w
    rw [bind_walked_step?, Bool.and_comm, Option.guard]
  have hanchor : p.anchor.filterMap walked = [] := by
    rw [List.filterMap_eq_nil_iff]
    intro c hc
    rcases mem_anchor hc with rfl | rfl <;> rfl
  rw [components_eq, List.filterMap_append, hanchor, List.nil_append, ← hpieces, trail]
  split
  · rw [List.filter_append]
    exact List.append_nil _
  · rfl

theorem no_slash_of_trail {p : Path} (h : p.pieces.getLast? ≠ some "") :
    p.trail = p.pieces.filter (!·.isEmpty) := by
  rw [trail, if_neg]
  intro hs
  obtain ⟨s, hs⟩ := exists_text_of_slash (beq_iff_eq.mp hs)
  have hp : p.pieces = (Path.mk s).pieces ++ [""] := by
    have hslashed := pieces_slash s ""
    rw [String.append_empty, ← hs] at hslashed
    exact hslashed
  rw [hp, List.getLast?_concat] at h
  exact h rfl

def IsStep (c : Component) : Prop :=
  c = .up ∨ ∃ n, c = .name n ∧ ProperName n

theorem exists_split_of_isPrefix {p : Path} (h : cs <+: p.components) :
    ∃ a st, cs = a ++ st ∧ (a = [] ∨ a = [.root] ∨ a = [.here]) ∧ ∀ c ∈ st, IsStep c := by
  have hsteps : ∀ {st}, st <+: p.pieces.filterMap step? → ∀ c ∈ st, IsStep c := by
    intro st hst c hc
    exact step_cases (hst.subset hc)
  have hcons : ∀ {r}, p.components = r :: p.pieces.filterMap step? → (r = .root ∨ r = .here) →
      ∃ a st, cs = a ++ st ∧ (a = [] ∨ a = [.root] ∨ a = [.here]) ∧ ∀ c ∈ st, IsStep c := by
    intro r hr hrh
    rw [hr, List.prefix_cons_iff] at h
    rcases h with rfl | ⟨st, rfl, hst⟩
    · exact ⟨[], [], rfl, .inl rfl, nofun⟩
    · refine ⟨[r], st, rfl, .inr ?_, hsteps hst⟩
      rcases hrh with rfl | rfl
      · exact .inl rfl
      · exact .inr rfl
  have hp := p.components_eq
  rw [anchor] at hp
  split at hp
  · exact hcons hp (.inl rfl)
  · split at hp
    · exact hcons hp (.inr rfl)
    · rw [hp, List.nil_append] at h
      exact ⟨[], cs, rfl, .inl rfl, hsteps h⟩

theorem IsStep.text_ne_empty (h : IsStep c) : c.text ≠ "" := by
  rcases h with rfl | ⟨n, rfl, hn⟩
  · decide
  · exact hn.ne_empty

theorem IsStep.no_slash (h : IsStep c) : '/' ∉ c.text.toList := by
  rcases h with rfl | ⟨n, rfl, hn⟩
  · decide
  · exact hn.no_slash

theorem filterMap_walked {st : List Component} (h : ∀ c ∈ st, IsStep c) :
    st.filterMap walked = st.map Component.text := by
  rw [← List.filterMap_eq_map]
  apply List.filterMap_congr
  intro c hc
  rcases h c hc with rfl | ⟨n, rfl, _⟩ <;> rfl

theorem ofComponents_of_ne (h : c ≠ .root) (cs : List Component) :
    ofComponents (c :: cs) = ⟨"/".intercalate ((c :: cs).map Component.text)⟩ := by
  cases c with
  | root => exact absurd rfl h
  | here => rfl
  | up => rfl
  | name n => rfl

theorem IsStep.ne_root (h : IsStep c) : c ≠ .root := by
  rintro rfl
  rcases h with h | ⟨n, h, _⟩ <;> cases h

def opening : Component → String
  | .root => ""
  | c => c.text

theorem pieces_ofComponents (ha : a = [] ∨ a = [.root] ∨ a = [.here]) (hne : st ≠ [])
    (h : ∀ c ∈ st, IsStep c) :
    (ofComponents (a ++ st)).pieces = a.map opening ++ st.map Component.text := by
  have hslash : ∀ w ∈ st.map Component.text, '/' ∉ w.toList := by
    intro w hw
    obtain ⟨c, hc, rfl⟩ := List.mem_map.mp hw
    exact (h c hc).no_slash
  have hmap : st.map Component.text ≠ [] := by simpa using hne
  rcases ha with rfl | rfl | rfl
  · obtain ⟨c, st, rfl⟩ := List.exists_cons_of_ne_nil hne
    rw [List.nil_append, ofComponents_of_ne (h c List.mem_cons_self).ne_root]
    exact pieces_intercalate hmap hslash
  · have hroot := pieces_slash "" ("/".intercalate (st.map Component.text))
    rw [String.empty_append, pieces_intercalate hmap hslash] at hroot
    exact hroot
  · apply pieces_intercalate (List.cons_ne_nil _ _)
    intro w hw
    rcases List.mem_cons.mp hw with rfl | hw
    · decide
    · exact hslash w hw

/-- A walk along the path with some steps follows their names. -/
theorem trail_ofComponents (ha : a = [] ∨ a = [.root] ∨ a = [.here]) (hne : st ≠ [])
    (h : ∀ c ∈ st, IsStep c) :
    (ofComponents (a ++ st)).trail =
      (a.map opening).filter (!·.isEmpty) ++ st.map Component.text := by
  have hp := pieces_ofComponents ha hne h
  rw [no_slash_of_trail, hp, List.filter_append]
  · congr 1
    rw [List.filter_eq_self]
    intro w hw
    obtain ⟨c, hc, rfl⟩ := List.mem_map.mp hw
    simpa using (h c hc).text_ne_empty
  · obtain ⟨st', c, rfl⟩ := (List.eq_nil_or_concat st).resolve_left hne
    rw [hp, List.concat_eq_append, List.map_append, ← List.append_assoc, List.map_singleton,
      List.getLast?_concat]
    intro he
    exact (h c (by simp)).text_ne_empty (Option.some.inj he)

theorem IsStep.step?_text (h : IsStep c) : step? c.text = some c := by
  rcases h with rfl | ⟨n, rfl, hn⟩
  · decide
  · exact step?_of_proper hn

theorem filterMap_step?_text {st : List Component} (h : ∀ c ∈ st, IsStep c) :
    (st.map Component.text).filterMap step? = st := by
  rw [List.filterMap_map]
  exact (List.filterMap_congr fun c hc => (h c hc).step?_text).trans List.filterMap_some

/-- The steps of the path that is written by some steps of a path are those steps. -/
theorem components_ofComponents {p : Path} (h : cs <+: p.components) :
    (ofComponents cs).components = cs := by
  obtain ⟨a, st, rfl, ha, hst⟩ := exists_split_of_isPrefix h
  by_cases hne : st = []
  · subst hne
    rcases ha with rfl | rfl | rfl <;> decide
  have hp := pieces_ofComponents ha hne hst
  have hsteps : (a.map opening).filterMap step? = [] := by
    rcases ha with rfl | rfl | rfl <;> decide
  rw [components_eq, hp, List.filterMap_append, hsteps, filterMap_step?_text hst, List.nil_append]
  congr 1
  obtain ⟨c, st, rfl⟩ := List.exists_cons_of_ne_nil hne
  have hc := hst c List.mem_cons_self
  -- Only a path that starts with a slash has nothing before its first slash.
  have hrelative : a ≠ [.root] → (ofComponents (a ++ c :: st)).isAbsolute = false := by
    intro hroot
    rw [Bool.eq_false_iff]
    intro habs
    obtain ⟨u, _, hu⟩ := pieces_of_isAbsolute habs
    rw [hp] at hu
    rcases ha with rfl | rfl | rfl
    · exact hc.text_ne_empty (List.head_eq_of_cons_eq hu)
    · exact hroot rfl
    · exact absurd (List.head_eq_of_cons_eq hu) (by decide)
  rw [anchor, hp]
  rcases ha with rfl | rfl | rfl
  · have hdot : c.text ≠ "." := by
      intro hdot
      have hstep := hc.step?_text
      rw [hdot] at hstep
      cases hstep
    rw [hrelative (by decide)]
    simpa using hdot
  · have habs : (ofComponents ([.root] ++ c :: st)).isAbsolute = true := by
      simp [isAbsolute, ofComponents]
    exact if_pos habs
  · rw [hrelative (by decide)]
    rfl

theorem getLast?_trail_ofComponents {p : Path} (h : cs ++ [.name n] <+: p.components) :
    (ofComponents (cs ++ [.name n])).trail.getLast? = some n := by
  obtain ⟨a, st, hsplit, ha, hst⟩ := exists_split_of_isPrefix h
  rcases List.eq_nil_or_concat st with rfl | ⟨st, c, rfl⟩
  · have hlast := congrArg List.getLast? hsplit
    rw [List.getLast?_concat] at hlast
    rcases ha with rfl | rfl | rfl <;> cases hlast
  · rw [hsplit, trail_ofComponents ha (by simp) hst]
    rw [List.concat_eq_append, ← List.append_assoc] at hsplit
    obtain rfl : .name n = c := List.singleton_inj.mp (List.append_inj' hsplit rfl).2
    simp [Component.text]

section Size

def weight (ws : List String) : Nat :=
  (ws.map fun w => w.utf8ByteSize + 1).sum

theorem size_intercalate (h : ws ≠ []) : ("/".intercalate ws).utf8ByteSize + 1 = weight ws := by
  induction ws with
  | nil => exact absurd rfl h
  | cons w ws ih =>
    cases ws with
    | nil =>
      rw [String.intercalate_singleton, weight]
      simp
    | cons v ws =>
      have htail := ih (List.cons_ne_nil _ _)
      have hslash : "/".utf8ByteSize = 1 := by decide
      rw [String.intercalate_cons_cons, String.utf8ByteSize_append, String.utf8ByteSize_append,
        hslash]
      simp only [weight, List.map_cons, List.sum_cons] at htail ⊢
      omega

theorem weight_le_of_sublist (h : List.Sublist ws vs) : weight ws ≤ weight vs :=
  List.Sublist.sum_le_sum (h.map _) fun _ _ => Nat.zero_le _

theorem size_intercalate_le (h : List.Sublist ws vs) :
    ("/".intercalate ws).utf8ByteSize ≤ ("/".intercalate vs).utf8ByteSize := by
  by_cases hw : ws = []
  · subst hw
    exact Nat.zero_le _
  · have hv : vs ≠ [] := by
      rintro rfl
      exact hw (List.sublist_nil.mp h)
    have hle := weight_le_of_sublist h
    have hws := size_intercalate hw
    have hvs := size_intercalate hv
    omega

theorem size_ofComponents_le (h : cs <+: ds) :
    (ofComponents cs).text.utf8ByteSize ≤ (ofComponents ds).text.utf8ByteSize := by
  cases cs with
  | nil => exact Nat.zero_le _
  | cons c cs =>
    obtain ⟨es, rfl⟩ := h
    have hsub : List.Sublist ((c :: cs).map Component.text)
        ((c :: (cs ++ es)).map Component.text) :=
      ((List.sublist_append_left cs es).cons_cons c).map _
    by_cases hc : c = .root
    · subst hc
      have hle := size_intercalate_le ((List.sublist_append_left cs es).map Component.text)
      simp only [List.cons_append, ofComponents, String.utf8ByteSize_append]
      omega
    · rw [List.cons_append, ofComponents_of_ne hc, ofComponents_of_ne hc]
      exact size_intercalate_le hsub

theorem intercalate_pieces (p : Path) : "/".intercalate p.pieces = p.text := by
  have hid : (String.toList ∘ String.ofList : List Char → List Char) = id :=
    funext fun _ => String.toList_ofList
  rw [← String.toList_inj, String.toList_intercalate, pieces, List.map_map, hid, List.map_id]
  exact Text.intercalate_splitWhere '/' p.text.toList

theorem map_text_steps (p : Path) :
    (p.pieces.filterMap step?).map Component.text =
      p.pieces.filter fun w => !w.isEmpty && w != "." := by
  rw [← filterMap_walked fun c => step_cases, List.filterMap_filterMap,
    ← List.filterMap_eq_filter]
  congr 1
  funext w
  rw [bind_walked_step?, Option.guard]

theorem size_components_le (p : Path) :
    (ofComponents p.components).text.utf8ByteSize ≤ p.text.utf8ByteSize := by
  have hsteps := p.map_text_steps
  rw [components_eq, anchor]
  split
  · rename_i habs
    obtain ⟨u, htext, hp⟩ := pieces_of_isAbsolute habs
    rw [hp, List.filter_cons_of_neg (by decide), ← hp] at hsteps
    have hle := size_intercalate_le (hsteps ▸ List.filter_sublist)
    rw [intercalate_pieces] at hle
    rw [htext]
    simp only [List.singleton_append, ofComponents, String.utf8ByteSize_append]
    exact Nat.add_le_add_left hle _
  · rw [← p.intercalate_pieces]
    split
    · rename_i hhere
      obtain ⟨ws, hws⟩ := List.head?_eq_some_iff.mp (beq_iff_eq.mp hhere)
      rw [hws, List.filter_cons_of_neg (by decide), ← hws] at hsteps
      have htail : List.Sublist ((p.pieces.filterMap step?).map Component.text) ws :=
        hsteps ▸ List.filter_sublist
      have hle := size_intercalate_le (htail.cons_cons ".")
      rw [← hws] at hle
      exact hle
    · have hsub : List.Sublist ((p.pieces.filterMap step?).map Component.text) p.pieces :=
        hsteps ▸ List.filter_sublist
      cases hs : p.pieces.filterMap step? with
      | nil => exact Nat.zero_le _
      | cons c st =>
        have hc : c ≠ .root := by
          rintro rfl
          rcases step_cases (hs ▸ List.mem_cons_self) with hc | ⟨n, hc, _⟩ <;> cases hc
        rw [hs] at hsub
        rw [List.nil_append, ofComponents_of_ne hc]
        exact size_intercalate_le hsub

end Size

end Path

end Scaffold
