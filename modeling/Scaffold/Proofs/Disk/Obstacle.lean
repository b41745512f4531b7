import Scaffold.Proofs.Disk.Saving

namespace Scaffold
set_option autoImplicit true

namespace Disk

/-- Why the directories of some names below a place cannot be made, if they cannot. -/
def obstacle? (d : Disk) : Location → List String → Option OsError
  | _, [] => none
  | l, n :: ns =>
    if longestName < n.utf8ByteSize then some .nameTooLong
    else match d.get? (l ++ [n]) with
      | some (.file _) => some (if ns.isEmpty then .alreadyExists else .notDirectory)
      | _ => d.obstacle? (l ++ [n]) ns

section Obstacle

variable {d d' : Disk} {b : Location} {ms ns : List String}

theorem obstacle?_cons (hsize : n.utf8ByteSize ≤ longestName)
    (hfile : ∀ c, d.get? (b ++ [n]) ≠ some (.file c)) :
    d.obstacle? b (n :: ns) = d.obstacle? (b ++ [n]) ns := by
  rw [obstacle?, if_neg (Nat.not_lt.mpr hsize)]
  split
  · rename_i c hc
    exact absurd hc (hfile c)
  · rfl

theorem obstacle?_long (hsize : longestName < n.utf8ByteSize) :
    d.obstacle? b (n :: ns) = some .nameTooLong := by
  rw [obstacle?, if_pos hsize]

theorem obstacle?_file (hsize : n.utf8ByteSize ≤ longestName)
    (hfile : d.get? (b ++ [n]) = some (.file c)) :
    d.obstacle? b (n :: ns) = some (if ns.isEmpty then .alreadyExists else .notDirectory) := by
  rw [obstacle?, if_neg (Nat.not_lt.mpr hsize), hfile]

theorem obstacle?_congr (h : ∀ ms, ms ≠ [] → ms <+: ns → d.SameFile d' (b ++ ms)) :
    d'.obstacle? b ns = d.obstacle? b ns := by
  induction ns generalizing b with
  | nil => rfl
  | cons n ns ih =>
    have hfirst : d.SameFile d' (b ++ [n]) :=
      h [n] (List.cons_ne_nil _ _) (List.prefix_append [n] ns)
    have hrest : d'.obstacle? (b ++ [n]) ns = d.obstacle? (b ++ [n]) ns := by
      apply ih
      intro ms _ hms
      rw [List.append_assoc]
      exact h _ (List.cons_ne_nil _ _) ((List.prefix_cons_inj n).mpr hms)
    by_cases hsize : longestName < n.utf8ByteSize
    · rw [obstacle?_long hsize, obstacle?_long hsize]
    · have hshort := Nat.not_lt.mp hsize
      by_cases hfile : ∃ c, d.get? (b ++ [n]) = some (.file c)
      · obtain ⟨c, hc⟩ := hfile
        rw [obstacle?_file hshort hc, obstacle?_file hshort ((hfirst c).mpr hc)]
      · rw [obstacle?_cons hshort fun c hc => hfile ⟨c, hc⟩,
          obstacle?_cons hshort fun c hc => hfile ⟨c, (hfirst c).mp hc⟩, hrest]

theorem clear_of_obstacle? (h : d.obstacle? b ns = none) :
    (∀ n ∈ ns, n.utf8ByteSize ≤ longestName) ∧
      ∀ ms, ms ≠ [] → ms <+: ns → ∀ c, d.get? (b ++ ms) ≠ some (.file c) := by
  induction ns generalizing b with
  | nil => exact ⟨nofun, fun ms hne hms => absurd (List.prefix_nil.mp hms) hne⟩
  | cons n ns ih =>
    by_cases hsize : longestName < n.utf8ByteSize
    · rw [obstacle?_long hsize] at h
      cases h
    have hshort := Nat.not_lt.mp hsize
    have hfile : ∀ c, d.get? (b ++ [n]) ≠ some (.file c) := by
      intro c hc
      rw [obstacle?_file hshort hc] at h
      cases h
    rw [obstacle?_cons hshort hfile] at h
    obtain ⟨hnames, hway⟩ := ih h
    refine ⟨List.forall_mem_cons.mpr ⟨hshort, hnames⟩, ?_⟩
    intro ms hne hms c
    obtain ⟨m, ms, rfl⟩ := List.exists_cons_of_ne_nil hne
    obtain ⟨rfl, hrest⟩ := List.cons_prefix_cons.mp hms
    by_cases hnil : ms = []
    · rw [hnil]
      exact hfile c
    · rw [List.append_cons]
      exact hway ms hnil hrest c

theorem obstacle?_of_clear (hshort : ∀ n ∈ ns, n.utf8ByteSize ≤ longestName)
    (hway : ∀ ms, ms ≠ [] → ms <+: ns → ∀ c, d.get? (b ++ ms) ≠ some (.file c)) :
    d.obstacle? b ns = none := by
  induction ns generalizing b with
  | nil => rfl
  | cons n ns ih =>
    obtain ⟨hn, hns⟩ := List.forall_mem_cons.mp hshort
    rw [obstacle?_cons hn (hway [n] (List.cons_ne_nil _ _) (List.prefix_append [n] ns))]
    apply ih hns
    intro ms _ hms
    rw [List.append_assoc]
    exact hway _ (List.cons_ne_nil _ _) ((List.prefix_cons_inj n).mpr hms)

theorem obstacle?_of_isPrefix (h : d.obstacle? b ns = none) (hms : ms <+: ns) :
    d.obstacle? b ms = none := by
  obtain ⟨hshort, hway⟩ := clear_of_obstacle? h
  exact obstacle?_of_clear (fun n hn => hshort n (hms.subset hn))
    fun ks hne hks => hway ks hne (hks.trans hms)

/-- Where no file is on the way, only a long name can be an obstacle, also further on. -/
theorem obstacle?_of_no_file
    (hway : ∀ ms, ms ≠ [] → ms <+: ns → ∀ c, d.get? (b ++ ms) ≠ some (.file c))
    (hms : ms <+: ns) (h : d.obstacle? b ms = some e) :
    e = .nameTooLong ∧ d.obstacle? b ns = some .nameTooLong := by
  induction ms generalizing b ns with
  | nil => cases h
  | cons m ms ih =>
    obtain ⟨ns', rfl⟩ := hms
    rw [List.cons_append] at hway ⊢
    by_cases hsize : longestName < m.utf8ByteSize
    · rw [obstacle?_long hsize] at h ⊢
      exact ⟨(Option.some.inj h).symm, rfl⟩
    · have hshort := Nat.not_lt.mp hsize
      have hfile : ∀ c, d.get? (b ++ [m]) ≠ some (.file c) :=
        hway [m] (List.cons_ne_nil _ _) (List.prefix_append [m] _)
      rw [obstacle?_cons hshort hfile] at h ⊢
      apply ih _ (List.prefix_append _ _) h
      intro ks _ hks
      rw [List.append_assoc]
      exact hway _ (List.cons_ne_nil _ _) ((List.prefix_cons_inj m).mpr hks)

end Obstacle

inductive Descent (d : Disk) (b : Location) (ns : List String) : Except OsError Spot → Prop where
  | stands : d.get? (b ++ ns) = some .directory → d.obstacle? b ns = none →
      Descent d b ns (.ok (.present (b ++ ns) .directory))
  | free : d.get? (b ++ ns) = none → d.get? (b ++ ns).dropLast = some .directory →
      d.obstacle? b ns = none → Descent d b ns (.ok (.absent (b ++ ns)))
  | missing : d.get? (b ++ ns.dropLast) = none →
      (∀ ms, ms ≠ [] → ms <+: ns → ∀ c, d.get? (b ++ ms) ≠ some (.file c)) →
      Descent d b ns (.error .notFound)
  | occupied : d.obstacle? b ns = some .alreadyExists →
      (∀ ms, ms <+: ns → d.obstacle? b ms = none → d.get? (b ++ ms) = some .directory) →
      Descent d b ns (.ok (.present (b ++ ns) (.file c)))
  | blocked : d.obstacle? b ns = some e → e ≠ .notFound →
      (∀ ms, ms <+: ns → d.obstacle? b ms = none → d.get? (b ++ ms) = some .directory) →
      Descent d b ns (.error e)

theorem forall_prefix_cons {P : List String → Prop} (hnil : P [])
    (hcons : ∀ ms, ms <+: ns → P (n :: ms)) : ∀ ms, ms <+: n :: ns → P ms := by
  intro ms hms
  rcases List.prefix_cons_iff.mp hms with rfl | ⟨ks, rfl, hks⟩
  · exact hnil
  · exact hcons ks hks

theorem Descent.cons {d : Disk} (hb : d.get? b = some .directory)
    (hshort : n.utf8ByteSize ≤ longestName) (hn : d.get? (b ++ [n]) = some .directory)
    (h : Descent d (b ++ [n]) ns r) : Descent d b (n :: ns) r := by
  have hfile : ∀ c, d.get? (b ++ [n]) ≠ some (.file c) := by simp [hn]
  have hobstacle : ∀ ms, d.obstacle? b (n :: ms) = d.obstacle? (b ++ [n]) ms :=
    fun ms => obstacle?_cons hshort hfile
  have happend : ∀ ms, b ++ [n] ++ ms = b ++ n :: ms := fun ms => List.append_assoc _ _ _
  have hclear : (∀ ms, ms <+: ns → d.obstacle? (b ++ [n]) ms = none →
        d.get? (b ++ [n] ++ ms) = some .directory) →
      ∀ ms, ms <+: n :: ns → d.obstacle? b ms = none → d.get? (b ++ ms) = some .directory := by
    intro hway
    apply forall_prefix_cons
    · intro _
      rwa [List.append_nil]
    · intro ms hms hnone
      rw [← happend]
      exact hway ms hms (hobstacle ms ▸ hnone)
  cases h with
  | stands hdir hnone =>
    rw [happend] at hdir ⊢
    exact .stands hdir (hobstacle ns ▸ hnone)
  | free hfree hparent hnone =>
    rw [happend] at hfree hparent ⊢
    exact .free hfree hparent (hobstacle ns ▸ hnone)
  | missing hnone hway =>
    have hne : ns ≠ [] := by
      rintro rfl
      rw [List.dropLast_nil, List.append_nil, hn] at hnone
      cases hnone
    refine .missing ?_ ?_
    · rwa [List.dropLast_cons_of_ne_nil hne, ← happend]
    · intro ms hms hpre c
      obtain ⟨m, ms, rfl⟩ := List.exists_cons_of_ne_nil hms
      obtain ⟨rfl, hrest⟩ := List.cons_prefix_cons.mp hpre
      rw [← happend]
      by_cases hnil : ms = []
      · rw [hnil, List.append_nil]
        exact hfile c
      · exact hway ms hnil hrest c
  | occupied hobst hway =>
    rw [happend]
    exact .occupied (hobstacle ns ▸ hobst) (hclear hway)
  | blocked hobst hne hway => exact .blocked (hobstacle ns ▸ hobst) hne (hclear hway)

section First

variable {d : Disk}

/-- Only the start is clear if the first name is the obstacle. -/
theorem directory_of_first (hb : d.get? b = some .directory)
    (hfirst : ∀ ms, d.obstacle? b (n :: ms) ≠ none) :
    ∀ ms, ms <+: n :: ns → d.obstacle? b ms = none → d.get? (b ++ ms) = some .directory := by
  apply forall_prefix_cons
  · intro _
    rwa [List.append_nil]
  · intro ms _ hnone
    exact absurd hnone (hfirst ms)

theorem Descent.of_long (hb : d.get? b = some .directory)
    (hsize : longestName < n.utf8ByteSize) : Descent d b (n :: ns) (.error .nameTooLong) := by
  have hlong : ∀ ms, d.obstacle? b (n :: ms) = some .nameTooLong := fun ms => obstacle?_long hsize
  exact .blocked (hlong ns) (by decide) (directory_of_first hb fun ms => by simp [hlong])

theorem Descent.of_free (hd : d.Plain) (hb : d.get? b = some .directory)
    (hshort : n.utf8ByteSize ≤ longestName) (hg : d.get? (b ++ [n]) = none) :
    Descent d b (n :: ns) (if ns = [] then .ok (.absent (b ++ [n])) else .error .notFound) := by
  have hbeyond : ∀ ms, d.get? (b ++ n :: ms) = none := by
    intro ms
    rw [List.append_cons]
    exact hd.none_of_append hg ms
  by_cases hend : ns = []
  · rw [if_pos hend, hend]
    exact .free hg (by rwa [List.dropLast_concat]) (obstacle?_cons hshort (by simp [hg]))
  · rw [if_neg hend]
    refine .missing ?_ ?_
    · rw [List.dropLast_cons_of_ne_nil hend]
      exact hbeyond _
    · intro ms hms hpre c hc
      obtain ⟨m, ms, rfl⟩ := List.exists_cons_of_ne_nil hms
      obtain ⟨rfl, _⟩ := List.cons_prefix_cons.mp hpre
      cases (hbeyond ms).symm.trans hc

theorem Descent.of_file (hb : d.get? b = some .directory) (hshort : n.utf8ByteSize ≤ longestName)
    (hg : d.get? (b ++ [n]) = some (.file c)) :
    Descent d b (n :: ns) (d.reach (b ++ [n]) ns) := by
  have hfirst : ∀ ms, d.obstacle? b (n :: ms) =
      some (if ms.isEmpty then .alreadyExists else .notDirectory) :=
    fun ms => obstacle?_file hshort hg
  have hway : ∀ ms, ms <+: n :: ns → d.obstacle? b ms = none →
      d.get? (b ++ ms) = some .directory := directory_of_first hb fun ms => by simp [hfirst]
  cases ns with
  | nil =>
    rw [reach_nil hg]
    exact .occupied (hfirst []) hway
  | cons m ns =>
    rw [reach_blocked (by simp [hg])]
    exact .blocked (hfirst (m :: ns)) (by decide) hway

theorem descent (hd : d.Plain) (hb : d.get? b = some .directory)
    (hns : ∀ n ∈ ns, ProperName n) : Descent d b ns (d.reach b ns) := by
  induction ns generalizing b with
  | nil =>
    rw [reach_nil hb]
    have h : Descent d b [] (.ok (.present (b ++ []) .directory)) :=
      .stands (by rwa [List.append_nil]) rfl
    rwa [List.append_nil] at h
  | cons n ns ih =>
    obtain ⟨hn, hrest⟩ := List.forall_mem_cons.mp hns
    rw [reach_name hd hb hn]
    by_cases hsize : longestName < n.utf8ByteSize
    · rw [if_pos hsize]
      exact .of_long hb hsize
    · rw [if_neg hsize]
      have hshort := Nat.not_lt.mp hsize
      rcases hd.cases_get? (b ++ [n]) with hg | hg | ⟨c, hg⟩
      · rw [if_pos hg]
        exact .of_free hd hb hshort hg
      · rw [if_neg (by simp [hg])]
        exact (ih hg hrest).cons hb hshort hg
      · rw [if_neg (by simp [hg])]
        exact .of_file hb hshort hg

end First

inductive Making (d : Disk) (b : Location) (ns : List String) (p : Path) : Prop where
  | made : d.makeDirectory p = .ok (d.put (b ++ ns) .directory) → d.get? (b ++ ns) = none →
      d.get? (b ++ ns).dropLast = some .directory → d.obstacle? b ns = none → Making d b ns p
  | stands : d.makeDirectory p = .error .alreadyExists → d.isDirectory p = true →
      d.get? (b ++ ns) = some .directory → d.obstacle? b ns = none → Making d b ns p
  | missing : d.makeDirectory p = .error .notFound → d.get? (b ++ ns.dropLast) = none →
      (∀ ms, ms ≠ [] → ms <+: ns → ∀ c, d.get? (b ++ ms) ≠ some (.file c)) → Making d b ns p
  | refused : d.makeDirectory p = .error e → e ≠ .notFound → d.isDirectory p = false →
      d.obstacle? b ns = some e →
      (∀ ms, ms <+: ns → d.obstacle? b ms = none → d.get? (b ++ ms) = some .directory) →
      Making d b ns p

theorem Ground.making {d d' : Disk} {G : Ground d} (h : G.Bears p) (hkeeps : d.Keeps d')
    (hms : ms <+: G.names p) (hne : G.front ≠ [] ∨ ms ≠ [])
    (hsize : (G.parent ms).text.utf8ByteSize ≤ longestPath) :
    Making d' G.base ms (G.parent ms) := by
  by_cases hnil : ms = []
  · subst hnil
    have hfind : ∀ follow, d'.find (G.parent []) follow = .ok (.present G.base .directory) := by
      rw [parent, List.map_nil, List.append_nil]
      exact find_front_later hkeeps (hne.resolve_right (absurd rfl))
    refine .stands ?_ ?_ ?_ rfl
    · simp only [makeDirectory, hfind]
    · simp only [isDirectory, lookUp?, hfind, beq_self_eq_true]
    · rw [List.append_nil]
      exact base_directory h hkeeps
  · have hfind : ∀ follow, d'.find (G.parent ms) follow = d'.reach G.base ms := by
      intro follow
      rw [find_parent h hms hnil hkeeps, if_neg (Nat.not_lt.mpr hsize)]
    have hdescent := descent hkeeps.plain (base_directory h hkeeps)
      fun n hn => h.proper n (hms.subset hn)
    generalize d'.reach G.base ms = r at hfind hdescent
    cases hdescent with
    | stands hdir hnone =>
      exact .stands (by simp [makeDirectory, hfind]) (by simp [isDirectory, lookUp?, hfind])
        hdir hnone
    | free hfree hparent hnone =>
      exact .made (by simp [makeDirectory, hfind]) hfree hparent hnone
    | missing hnone hway => exact .missing (by simp [makeDirectory, hfind]) hnone hway
    | occupied hobst hway =>
      exact .refused (by simp [makeDirectory, hfind]) (by decide)
        (by simp [isDirectory, lookUp?, hfind]) hobst hway
    | blocked hobst hne hway =>
      exact .refused (by simp [makeDirectory, hfind]) hne
        (by simp [isDirectory, lookUp?, hfind]) hobst hway

end Disk

end Scaffold
