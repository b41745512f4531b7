import Scaffold.Declaration

namespace Scaffold.SyntaxTree
set_option autoImplicit true

def methodKey (x : Method) : String :=
  Text.asciiLower x.name

theorem firstOfName_cons_of_mem (h : methodKey x ∈ seen) (ms : List Method) :
    firstOfName seen (x :: ms) = firstOfName seen ms :=
  if_pos (List.contains_iff_mem.mpr h)

theorem firstOfName_cons_of_not_mem (h : methodKey x ∉ seen) (ms : List Method) :
    firstOfName seen (x :: ms) = x :: firstOfName (methodKey x :: seen) ms :=
  if_neg fun hc => h (List.contains_iff_mem.mp hc)

theorem exists_split_cons {P : List α → Prop} :
    (∃ pre post, y :: l = pre ++ x :: post ∧ P pre) ↔
      (x = y ∧ P []) ∨ ∃ pre post, l = pre ++ x :: post ∧ P (y :: pre) := by
  constructor
  · rintro ⟨pre, post, he, hp⟩
    cases pre with
    | nil =>
      obtain ⟨rfl, rfl⟩ := List.cons.inj he
      exact .inl ⟨rfl, hp⟩
    | cons z pre =>
      obtain ⟨rfl, rfl⟩ := List.cons.inj he
      exact .inr ⟨pre, post, rfl, hp⟩
  · rintro (⟨rfl, hp⟩ | ⟨pre, post, rfl, hp⟩)
    · exact ⟨[], l, rfl, hp⟩
    · exact ⟨y :: pre, post, rfl, hp⟩

/-- The first method of each name is kept, unless its name was seen before. -/
theorem mem_firstOfName : x ∈ firstOfName seen ms ↔
    ∃ pre post, ms = pre ++ x :: post ∧ methodKey x ∉ seen ∧ methodKey x ∉ pre.map methodKey := by
  induction ms generalizing seen with
  | nil => simp [firstOfName]
  | cons y ms ih =>
    rw [exists_split_cons (P := fun pre => methodKey x ∉ seen ∧ methodKey x ∉ pre.map methodKey)]
    simp only [List.map_cons, List.mem_cons, not_or]
    by_cases hy : methodKey y ∈ seen
    · rw [firstOfName_cons_of_mem hy, ih]
      constructor
      · rintro ⟨pre, post, he, hs, hp⟩
        exact .inr ⟨pre, post, he, hs, fun hk => hs (hk ▸ hy), hp⟩
      · rintro (⟨rfl, hs, _⟩ | ⟨pre, post, he, hs, _, hp⟩)
        · exact absurd hy hs
        · exact ⟨pre, post, he, hs, hp⟩
    · rw [firstOfName_cons_of_not_mem hy, List.mem_cons, ih]
      simp only [List.mem_cons, not_or]
      constructor
      · rintro (rfl | ⟨pre, post, he, ⟨hne, hs⟩, hp⟩)
        · exact .inl ⟨rfl, hy, List.not_mem_nil⟩
        · exact .inr ⟨pre, post, he, hs, hne, hp⟩
      · rintro (⟨rfl, _⟩ | ⟨pre, post, he, hs, hne, hp⟩)
        · exact .inl rfl
        · exact .inr ⟨pre, post, he, ⟨hne, hs⟩, hp⟩

theorem mem_firstOfName_append : x ∈ firstOfName [] (ms ++ ns) ↔
    x ∈ firstOfName [] ms ∨ ∃ pre post, ns = pre ++ x :: post ∧
      methodKey x ∉ ms.map methodKey ∧ methodKey x ∉ pre.map methodKey := by
  simp only [mem_firstOfName, List.not_mem_nil, not_false_eq_true, true_and]
  constructor
  · rintro ⟨pre, post, he, hp⟩
    rcases List.append_eq_append_iff.mp he with ⟨rest, rfl, rfl⟩ | ⟨rest, rfl, hr⟩
    · rw [List.map_append, List.mem_append, not_or] at hp
      exact .inr ⟨rest, post, rfl, hp.1, hp.2⟩
    · cases rest with
      | nil =>
        exact .inr ⟨[], post, hr.symm, by simpa using hp, nofun⟩
      | cons y rest =>
        obtain ⟨rfl, rfl⟩ := List.cons.inj hr
        exact .inl ⟨pre, rest, rfl, hp⟩
  · rintro (⟨pre, post, rfl, hp⟩ | ⟨pre, post, rfl, hm, hp⟩)
    · exact ⟨pre, post ++ ns, by simp, hp⟩
    · exact ⟨ms ++ pre, post, by simp, by simp [List.mem_append, hm, hp]⟩

theorem firstOfName_congr (h : ∀ k, k ∈ seen ↔ k ∈ seen') (ms : List Method) :
    firstOfName seen ms = firstOfName seen' ms := by
  induction ms generalizing seen seen' with
  | nil => rfl
  | cons x ms ih =>
    by_cases hx : methodKey x ∈ seen
    · rw [firstOfName_cons_of_mem hx, firstOfName_cons_of_mem ((h _).mp hx)]
      exact ih h
    · have hx' : methodKey x ∉ seen' := fun hm => hx ((h _).mpr hm)
      rw [firstOfName_cons_of_not_mem hx, firstOfName_cons_of_not_mem hx']
      congr 1
      apply ih
      intro k
      rw [List.mem_cons, List.mem_cons, h k]

theorem firstOfName_append (seen : List String) (ms ns : List Method) :
    firstOfName seen (ms ++ ns) = firstOfName seen ms ++
      firstOfName ((firstOfName seen ms).map methodKey ++ seen) ns := by
  induction ms generalizing seen with
  | nil => rfl
  | cons x ms ih =>
    by_cases hx : methodKey x ∈ seen
    · rw [List.cons_append, firstOfName_cons_of_mem hx, firstOfName_cons_of_mem hx]
      exact ih seen
    · rw [List.cons_append, firstOfName_cons_of_not_mem hx, firstOfName_cons_of_not_mem hx, ih,
        List.cons_append, List.map_cons]
      congr 2
      apply firstOfName_congr
      intro k
      simp only [List.cons_append, List.mem_cons, List.mem_append]
      exact or_left_comm

theorem firstOfName_sublist (seen : List String) (ms : List Method) :
    (firstOfName seen ms).Sublist ms := by
  induction ms generalizing seen with
  | nil => exact List.Sublist.refl _
  | cons x ms ih =>
    by_cases hx : methodKey x ∈ seen
    · rw [firstOfName_cons_of_mem hx]
      exact (ih seen).cons x
    · rw [firstOfName_cons_of_not_mem hx]
      exact (ih _).cons_cons x

theorem filter_firstOfName (key : String) (seen : List String) (ms : List Method) :
    (firstOfName seen ms).filter (methodKey · == key) =
      if key ∈ seen then [] else (ms.filter (methodKey · == key)).take 1 := by
  induction ms generalizing seen with
  | nil => simp [firstOfName]
  | cons x ms ih =>
    by_cases hx : methodKey x ∈ seen
    · rw [firstOfName_cons_of_mem hx, ih]
      split
      · rfl
      · rename_i hkey
        have hne : methodKey x ≠ key := fun he => hkey (he ▸ hx)
        rw [List.filter_cons_of_neg (by simpa using hne)]
    · rw [firstOfName_cons_of_not_mem hx]
      by_cases he : methodKey x = key
      · subst he
        rw [List.filter_cons_of_pos (by simp), List.filter_cons_of_pos (by simp), ih,
          if_pos List.mem_cons_self, if_neg hx]
        rfl
      · rw [List.filter_cons_of_neg (by simpa using he),
          List.filter_cons_of_neg (by simpa using he), ih]
        simp only [List.mem_cons, Ne.symm he, false_or]

end Scaffold.SyntaxTree
