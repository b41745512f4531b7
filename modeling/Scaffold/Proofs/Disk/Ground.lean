import Scaffold.Proofs.Disk.Walk

namespace Scaffold
set_option autoImplicit true

namespace Disk

/-- A later state of a file system in which all directories are still there. -/
structure Keeps (d d' : Disk) : Prop where
  plain : d'.Plain
  working : d'.workingDirectory = d.workingDirectory
  directories : ∀ l, d.get? l = some .directory → d'.get? l = some .directory

theorem Plain.keeps (hd : Plain d) : d.Keeps d :=
  ⟨hd, rfl, fun _ h => h⟩

theorem Keeps.trans (h : Keeps d d') (h' : Keeps d' d'') : Keeps d d'' :=
  ⟨h'.plain, h'.working.trans h.working, fun l hl => h'.directories l (h.directories l hl)⟩

theorem Keeps.start (h : Keeps d d') (p : Path) : d'.start p = d.start p := by
  rw [Disk.start, Disk.start, h.working]

theorem directory_of_reach_absent (h : reach d b ns = .ok (.absent l)) (hb : d.get? b ≠ none) :
    d.get? b = some .directory := by
  cases ns with
  | nil =>
    obtain ⟨e, he⟩ := Option.ne_none_iff_exists'.mp hb
    rw [reach_nil he] at h
    cases h
  | cons n ns =>
    by_contra hdir
    rw [reach_blocked hdir] at h
    cases h

theorem reach_of_absent {d d' : Disk} (hd : d.Plain) (hkeeps : d.Keeps d')
    (hb : d.get? b ≠ none) (h : d.reach b ns = .ok (.absent l)) (he : d'.get? l = some e) :
    d'.reach b ns = .ok (.present l e) := by
  induction ns generalizing b with
  | nil =>
    obtain ⟨e', he'⟩ := Option.ne_none_iff_exists'.mp hb
    rw [reach_nil he'] at h
    cases h
  | cons n ns ih =>
    have hdir := directory_of_reach_absent h hb
    rw [reach_cons hd hdir] at h
    rw [reach_cons hkeeps.plain (hkeeps.directories b hdir)]
    split_ifs at h with hdot hup hsize hfree hend
    · rw [if_pos hdot]
      exact ih hb h
    · rw [if_neg hdot, if_pos hup]
      exact ih (by simp [hd.rooted hdir]) h
    · cases h
      subst hend
      rw [if_neg hdot, if_neg hup, if_neg hsize, if_neg (by simp [he]), reach_nil he]
    · have hnext := hkeeps.directories _ (directory_of_reach_absent h hfree)
      rw [if_neg hdot, if_neg hup, if_neg hsize, if_neg (by simp [hnext])]
      exact ih hfree h

theorem find_of_absent {d d' : Disk} (hd : d.Plain) (hkeeps : d.Keeps d')
    (h : d.find p follow = .ok (.absent l)) (he : d'.get? l = some e) :
    d'.find p follow = .ok (.present l e) := by
  have htext := text_ne_empty_of_find h
  rw [find_eq_reach hd htext] at h
  rw [find_eq_reach hkeeps.plain htext, hkeeps.start]
  split at h
  · cases h
  · rename_i hsize
    rw [if_neg hsize]
    exact reach_of_absent hd hkeeps (hd.get?_start_ne_none p) h he

/-- Steps that lead to a directory of a plain file system. -/
structure Ground (d : Disk) where
  plain : d.Plain
  front : List Component
  base : Location
  leads : (front = [] ∧ base = d.workingDirectory) ∨
    d.find (.ofComponents front) true = .ok (.present base .directory)

namespace Ground

variable {d : Disk} (G : Ground d)

/-- From the ground on, the path has names only. -/
def Bears (p : Path) : Prop :=
  ∃ names, names ≠ [] ∧ p.components = G.front ++ names.map .name

def names (p : Path) : List String :=
  (p.components.drop G.front.length).filterMap Component.name?

def place (p : Path) : Location :=
  G.base ++ G.names p

variable {G} {p : Path}

theorem names_eq (h : p.components = G.front ++ ns.map .name) : G.names p = ns := by
  rw [names, h, List.drop_left, List.filterMap_map]
  exact List.filterMap_some

theorem Bears.components (h : G.Bears p) : p.components = G.front ++ (G.names p).map .name := by
  obtain ⟨ns, _, hp⟩ := h
  rw [names_eq hp, hp]

theorem Bears.names_ne_nil (h : G.Bears p) : G.names p ≠ [] := by
  obtain ⟨ns, hne, hp⟩ := h
  rwa [names_eq hp]

theorem Bears.proper (h : G.Bears p) : ∀ n ∈ G.names p, ProperName n := by
  intro n hn
  apply Path.proper_of_mem_components (p := p)
  rw [h.components]
  exact List.mem_append_right _ (List.mem_map_of_mem hn)

theorem Bears.text_ne_empty (h : G.Bears p) : p.text ≠ "" := by
  intro htext
  obtain ⟨text⟩ := p
  subst htext
  obtain ⟨ns, hne, hp⟩ := h
  have hnil : (Path.mk "").components = [] := by decide
  rw [hnil, eq_comm, List.append_eq_nil_iff, List.map_eq_nil_iff] at hp
  exact hne hp.2

theorem walked_components (h : G.Bears p) :
    p.components.filterMap Path.walked = G.front.filterMap Path.walked ++ G.names p := by
  rw [h.components, List.filterMap_append, List.filterMap_map]
  exact congrArg _ List.filterMap_some

theorem find_front (hne : G.front ≠ []) :
    d.find (.ofComponents G.front) true = .ok (.present G.base .directory) := by
  rcases G.leads with ⟨hfront, _⟩ | hfind
  · exact absurd hfront hne
  · exact hfind

theorem follows_front (hne : G.front ≠ []) :
    Follows d (d.start (.ofComponents G.front)) (Path.ofComponents G.front).trail G.base := by
  have hfind := find_front hne
  rw [find_eq_reach G.plain (text_ne_empty_of_find hfind)] at hfind
  split at hfind
  · cases hfind
  · exact .of_reach G.plain hfind

theorem follows (h : G.Bears p) :
    Follows d (d.start p) (G.front.filterMap Path.walked) G.base := by
  by_cases hne : G.front = []
  · have hbase : G.base = d.workingDirectory := by
      rcases G.leads with ⟨_, hbase⟩ | hfind
      · exact hbase
      · rw [hne] at hfind
        cases hfind
    have habs : p.isAbsolute = false := by
      rw [Bool.eq_false_iff, ne_eq, Path.isAbsolute_iff, h.components, hne, List.nil_append,
        List.head?_map]
      cases (G.names p).head? <;> simp
    rw [hne, hbase, start, habs]
    exact .here G.plain.working
  · have hfront : (Path.ofComponents G.front).components = G.front :=
      Path.components_ofComponents (p := p) ⟨_, h.components.symm⟩
    have habs : (Path.ofComponents G.front).isAbsolute = p.isAbsolute := by
      rw [Bool.eq_iff_iff, Path.isAbsolute_iff, Path.isAbsolute_iff, hfront, h.components,
        List.head?_append_of_ne_nil _ hne]
    have hwalk := (follows_front hne).filter
    rwa [Path.filter_trail, hfront, start, habs] at hwalk

/-- What is left of a path's names for a walk from the ground; only its dots are not names. -/
theorem find_eq (h : G.Bears p) :
    ∃ ns, ns <:+ p.trail ∧ ns.filter (· != ".") = G.names p ∧
      ∀ {d'}, d.Keeps d' → ∀ follow, d'.find p follow =
        if longestPath < p.text.utf8ByteSize then .error .nameTooLong else d'.reach G.base ns := by
  have htrail := Path.filter_trail p
  rw [walked_components h, List.filter_eq_append_iff] at htrail
  obtain ⟨xs, ns, hsplit, hxs, hns⟩ := htrail
  refine ⟨ns, ⟨xs, hsplit.symm⟩, hns, ?_⟩
  intro d' hkeeps follow
  have hwalk : Follows d' (d'.start p) xs G.base := by
    rw [hkeeps.start]
    apply Follows.mono _ hkeeps.directories
    apply Follows.of_filter
    rw [hxs]
    exact follows h
  rw [find_eq_reach hkeeps.plain h.text_ne_empty, hsplit, hwalk.reach_append hkeeps.plain]

def parent (G : Ground d) (ms : List String) : Path :=
  .ofComponents (G.front ++ ms.map .name)

theorem Bears.components_parent (h : G.Bears p) (hms : ms <+: G.names p) :
    (G.parent ms).components = G.front ++ ms.map .name := by
  apply Path.components_ofComponents (p := p)
  rw [h.components]
  exact (List.prefix_append_right_inj _).mpr (hms.map _)

theorem find_parent (h : G.Bears p) (hms : ms <+: G.names p) (hne : ms ≠ [])
    (hkeeps : d.Keeps d') (follow : Bool) :
    d'.find (G.parent ms) follow =
      if longestPath < (G.parent ms).text.utf8ByteSize then .error .nameTooLong
      else d'.reach G.base ms := by
  have hcomponents := h.components_parent hms
  obtain ⟨ns, hsuf, hns, hfind⟩ := find_eq ⟨ms, hne, hcomponents⟩
  rw [names_eq hcomponents] at hns
  have hlast : ns.getLast? ≠ some "." := by
    obtain ⟨ms, n, rfl⟩ := (List.eq_nil_or_concat' ms).resolve_left hne
    have hn : ProperName n := h.proper n (hms.subset (by simp))
    have htrail : (G.parent (ms ++ [n])).trail.getLast? = some n := by
      rw [parent, List.map_append, ← List.append_assoc]
      apply Path.getLast?_trail_ofComponents (p := p)
      rw [List.append_assoc, h.components, List.prefix_append_right_inj]
      simpa using hms.map Component.name
    obtain ⟨xs, hxs⟩ := hsuf
    have hnonempty : ns ≠ [] := by
      rintro rfl
      simp at hns
    rw [← hxs, List.getLast?_append_of_ne_nil _ hnonempty] at htrail
    rw [htrail]
    simpa using hn.ne_dot
  rw [hfind hkeeps, reach_filter hkeeps.plain hlast, hns]

section Later

variable {d' d'' : Disk} (h : G.Bears p) (hkeeps : d.Keeps d')
include h hkeeps

theorem base_directory : d'.get? G.base = some .directory :=
  hkeeps.directories _ (follows h).target

theorem find_ok (hfind : d'.find p follow = .ok s) :
    s.place = G.place p ∧ p.text.utf8ByteSize ≤ longestPath ∧
      ∀ n ∈ G.names p, n.utf8ByteSize ≤ longestName := by
  obtain ⟨ns, _, hns, heq⟩ := find_eq h
  rw [heq hkeeps] at hfind
  split at hfind
  · cases hfind
  · rename_i hsize
    obtain ⟨hs, hshort⟩ := place_of_reach hkeeps.plain (hns ▸ h.proper) hfind
    rw [hns] at hs hshort
    exact ⟨hs, Nat.not_lt.mp hsize, hshort⟩

/-- Where a path leads depends only on what stands between the ground and its place. -/
theorem find_congr (hkeeps' : d.Keeps d'')
    (hway : ∀ ms, ms <+: G.names p → d''.get? (G.base ++ ms) = d'.get? (G.base ++ ms))
    (follow : Bool) : d''.find p follow = d'.find p follow := by
  obtain ⟨ns, _, hns, heq⟩ := find_eq h
  have hproper : ∀ n ∈ ns.filter (· != "."), ProperName n := hns ▸ h.proper
  rw [heq hkeeps, heq hkeeps', reach_congr hkeeps.plain hkeeps'.plain hproper (hns ▸ hway)]

theorem find_congr_of_present (hkeeps' : d.Keeps d'') (he : d'.get? (G.place p) = some e)
    (he' : d''.get? (G.place p) = some e) (follow : Bool) :
    d''.find p follow = d'.find p follow := by
  apply find_congr h hkeeps hkeeps'
  rintro ms ⟨rest, hrest⟩
  by_cases hnil : rest = []
  · have hms : G.base ++ ms = G.place p := by rw [place, ← hrest, hnil, List.append_nil]
    rw [hms, he, he']
  · rw [place, ← hrest, ← List.append_assoc] at he he'
    rw [hkeeps.plain.directory_of_append he hnil, hkeeps'.plain.directory_of_append he' hnil]

/-- Whether a path leads to a file is decided by what stands at its place. -/
theorem find_file (hkeeps' : d.Keeps d'')
    (hfile : d'.get? (G.place p) = some (.file content) →
      d''.get? (G.place p) = some (.file content))
    (hfind : d'.find p follow = .ok (.present l (.file content))) :
    d''.find p follow = .ok (.present l (.file content)) := by
  have hget := get?_of_find_present hfind
  obtain ⟨rfl, _⟩ := find_ok h hkeeps hfind
  rw [find_congr_of_present h hkeeps hkeeps' hget (hfile hget), hfind]

end Later

end Ground

end Disk

end Scaffold
