import Scaffold.Proofs.Disk.Ground

namespace Scaffold
set_option autoImplicit true

def Component.follow (l : Location) : Component → Location
  | root => []
  | here => l
  | up => l.dropLast
  | name n => l ++ [n]

namespace Disk

/-- Where the steps of a path lead, by their spelling. -/
def placeOf (d : Disk) (p : Path) : Location :=
  p.components.foldl Component.follow d.workingDirectory

def descend (l : Location) (n : String) : Location :=
  if n = "." then l else if n = ".." then l.dropLast else l ++ [n]

theorem foldl_descend_filter (ns : List String) (l : Location) :
    (ns.filter (· != ".")).foldl descend l = ns.foldl descend l := by
  rw [List.foldl_filter]
  apply List.foldl_ext
  intro m n _
  by_cases hn : n = "."
  · subst hn
    rfl
  · rw [if_pos (by simpa using hn)]

theorem foldl_descend_walked {cs : List Component} (h : ∀ c ∈ cs, Path.IsStep c) (l : Location) :
    (cs.filterMap Path.walked).foldl descend l = cs.foldl Component.follow l := by
  rw [Path.filterMap_walked h, List.foldl_map]
  apply List.foldl_ext
  intro m c hc
  rcases h c hc with rfl | ⟨n, rfl, hn⟩
  · rfl
  · rw [Component.text, descend, if_neg hn.ne_dot, if_neg hn.ne_dots]
    rfl

theorem foldl_follow_anchor (d : Disk) (p : Path) :
    p.anchor.foldl Component.follow d.workingDirectory = d.start p := by
  rw [Path.anchor, start]
  split
  · rfl
  · split <;> rfl

/-- A walk along a path comes to the place that the steps of the path spell. -/
theorem foldl_descend_trail (d : Disk) (p : Path) :
    p.trail.foldl descend (d.start p) = d.placeOf p := by
  have hanchor : p.anchor.filterMap Path.walked = [] := by
    rw [List.filterMap_eq_nil_iff]
    intro c hc
    rcases Path.mem_anchor hc with rfl | rfl <;> rfl
  have hsteps : ∀ c ∈ p.pieces.filterMap Path.step?, Path.IsStep c := fun c hc => Path.step_cases hc
  rw [← foldl_descend_filter, Path.filter_trail, placeOf, Path.components_eq,
    List.filterMap_append, hanchor, List.nil_append, List.foldl_append, foldl_follow_anchor]
  exact foldl_descend_walked hsteps _

theorem place_eq_of_reach {d : Disk} (hd : d.Plain) (h : d.reach b ns = .ok s) :
    s.place = ns.foldl descend b := by
  induction ns generalizing b with
  | nil =>
    simp only [reach, walk, walkWith] at h
    split at h <;> cases h <;> rfl
  | cons n ns ih =>
    by_cases hb : d.get? b = some .directory
    · rw [reach_cons hd hb] at h
      rw [List.foldl_cons, descend]
      split_ifs at h ⊢ with hdot hup hsize hfree hend
      · exact ih h
      · exact ih h
      · cases h
        rw [hend]
        rfl
      · exact ih h
    · rw [reach_blocked hb] at h
      cases h

/-- Without links a path leads to the place that it spells, if it leads anywhere. -/
theorem Plain.place_eq {d : Disk} (hd : d.Plain) (h : d.find p follow = .ok s) :
    s.place = d.placeOf p := by
  rw [find_eq_reach hd (text_ne_empty_of_find h)] at h
  split at h
  · cases h
  · rw [place_eq_of_reach hd h, foldl_descend_trail]

theorem Keeps.placeOf_eq {d d' : Disk} (h : d.Keeps d') (p : Path) :
    d'.placeOf p = d.placeOf p := by
  rw [placeOf, h.working, placeOf]

/-- Paths that go on by names from the same steps spell the same place only if the names are the
same. -/
theorem placeOf_ne (d : Disk) {p q : Path} {ns ms : List String}
    (hp : p.components = cs ++ ns.map .name) (hq : q.components = cs ++ ms.map .name)
    (hne : p.components ≠ q.components) :
    d.placeOf p ≠ d.placeOf q := by
  have hnames : ∀ (ns : List String) (l : Location),
      (ns.map Component.name).foldl Component.follow l = l ++ ns := by
    intro ns
    induction ns with
    | nil => exact fun l => (List.append_nil l).symm
    | cons n ns ih =>
      intro l
      rw [List.map_cons, List.foldl_cons, ih, Component.follow, List.append_assoc]
      rfl
  intro h
  rw [placeOf, placeOf, hp, hq, List.foldl_append, List.foldl_append, hnames, hnames] at h
  apply hne
  rw [hp, hq, List.append_cancel_left h]

end Disk

end Scaffold
