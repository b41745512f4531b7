import Scaffold.Proofs.Disk.Obstacle

namespace Scaffold
set_option autoImplicit true

namespace Disk

/-- On the way to a place only directories were added, and nothing changed at the place. -/
structure Along (d D : Disk) (l : Location) : Prop where
  keeps : d.Keeps D
  way : ∀ m, m <+: l → m ≠ l →
    D.get? m = d.get? m ∨ (d.get? m = none ∧ D.get? m = some .directory)
  place : D.get? l = d.get? l

theorem Plain.along (hd : Plain d) (l : Location) : d.Along d l :=
  ⟨hd.keeps, fun _ _ _ => .inl rfl, rfl⟩

theorem Along.sameFile (h : Along d D l) (hm : m <+: l) : d.SameFile D m := by
  by_cases hml : m = l
  · rw [hml]
    exact .of_eq h.place
  · rcases h.way m hm hml with heq | ⟨hnone, hdir⟩
    · exact .of_eq heq
    · intro content
      simp [hnone, hdir]

/-- Something is put where the way does not lead, or a directory above the place. -/
theorem Along.put (h : Along d D l) (hkeeps : D.Keeps (D.put m e)) (hne : m ≠ [])
    (hm : ¬ m <+: l ∨ (m ≠ l ∧ D.get? m = none ∧ e = .directory)) : d.Along (D.put m e) l := by
  have hml : m ≠ l := by
    rcases hm with hm | ⟨hml, _⟩
    · rintro rfl
      exact hm List.prefix_rfl
    · exact hml
  refine ⟨h.keeps.trans hkeeps, ?_, ?_⟩
  · intro k hk hkl
    rw [get?_put hne]
    split
    · rename_i hkm
      subst hkm
      rcases hm with hm | ⟨_, hfree, rfl⟩
      · exact absurd hk hm
      · rcases h.way k hk hkl with heq | ⟨hnone, _⟩
        · exact .inr ⟨heq.symm.trans hfree, rfl⟩
        · exact .inr ⟨hnone, rfl⟩
    · exact h.way k hk hkl
  · rw [get?_put hne, if_neg (Ne.symm hml)]
    exact h.place

structure Alike (d d' : Disk) : Prop where
  working : d'.workingDirectory = d.workingDirectory
  get? : ∀ l, d'.get? l = d.get? l

namespace Ground

variable {d : Disk} (G : Ground d)

def parents (p : Path) : List String :=
  (G.names p).dropLast

def refusal? (p : Path) : Option OsError :=
  if longestPath < (G.parent (G.parents p)).text.utf8ByteSize then some .nameTooLong
  else d.obstacle? G.base (G.parents p)

/-- What comes of saving a file at a path: its directories cannot be made, or the write decides
once they are there. -/
inductive Saves (p : Path) (text : String) : Except OsError Unit → Prop where
  | refused : G.refusal? p = some e → Saves p text (.error e)
  | decided : G.refusal? p = none → d.Along D (G.place p) →
      D.get? (G.base ++ G.parents p) = some .directory →
      Saves p text ((D.writeText p text).map fun _ => ())

variable {G} {p : Path}

theorem Bears.place_eq (h : G.Bears p) :
    ∃ n, G.names p = G.parents p ++ [n] ∧ G.place p = G.base ++ G.parents p ++ [n] := by
  obtain ⟨ns, n, hns⟩ := (List.eq_nil_or_concat' (G.names p)).resolve_left h.names_ne_nil
  have hparents : G.parents p = ns := by rw [parents, hns, List.dropLast_concat]
  exact ⟨n, by rw [hparents, hns], by rw [place, hparents, hns, List.append_assoc]⟩

theorem parent_isPrefix (hms : ms <+: G.parents p) : ms <+: G.names p :=
  hms.trans <| List.dropLast_prefix _

theorem Bears.above (h : G.Bears p) (hms : ms <+: G.parents p) :
    G.base ++ ms <+: G.place p ∧ G.base ++ ms ≠ G.place p := by
  obtain ⟨n, _, hplace⟩ := h.place_eq
  have hpre := (List.prefix_append_right_inj G.base).mpr hms
  rw [hplace]
  refine ⟨hpre.trans (List.prefix_append _ _), ?_⟩
  intro heq
  have hlen := hpre.length_le
  rw [heq] at hlen
  simp at hlen

theorem obstacle?_along (h : G.Bears p) (halong : d.Along D (G.place p))
    (hms : ms <+: G.parents p) : D.obstacle? G.base ms = d.obstacle? G.base ms := by
  apply obstacle?_congr
  intro ks _ hks
  exact halong.sameFile (h.above (hks.trans hms)).1

theorem directory_of_isPrefix {D : Disk} (hD : D.Plain)
    (hdir : D.get? (b ++ ns) = some .directory) (hms : ms <+: ns) :
    D.get? (b ++ ms) = some .directory := by
  obtain ⟨ks, rfl⟩ := hms
  by_cases hnil : ks = []
  · rwa [hnil, List.append_nil] at hdir
  · rw [← List.append_assoc] at hdir
    exact hD.directory_of_append hdir hnil

theorem find_decided (h : G.Bears p) (halong : d.Along D (G.place p))
    (hdir : D.get? (G.base ++ G.parents p) = some .directory) (halong' : d.Along D' (G.place p))
    (hdir' : D'.get? (G.base ++ G.parents p) = some .directory) :
    D'.find p true = D.find p true := by
  apply find_congr h halong.keeps halong'.keeps
  intro ms hms
  obtain ⟨n, hnames, hplace⟩ := h.place_eq
  rw [hnames, List.prefix_concat_iff] at hms
  rcases hms with rfl | hms
  · rw [← List.append_assoc, ← hplace, halong.place, halong'.place]
  · rw [directory_of_isPrefix halong.keeps.plain hdir hms,
      directory_of_isPrefix halong'.keeps.plain hdir' hms]

theorem Saves.unique (h : G.Bears p) (hv : G.Saves p text v) (hw : G.Saves p text w) : v = w := by
  cases hv with
  | refused hr =>
    cases hw with
    | refused hr' =>
      cases hr.symm.trans hr'
      rfl
    | decided hr' _ _ => cases hr.symm.trans hr'
  | decided hr halong hdir =>
    cases hw with
    | refused hr' => cases hr.symm.trans hr'
    | decided _ halong' hdir' =>
      rw [writeText, writeText, find_decided h halong hdir halong' hdir']
      split <;> rfl

end Ground

end Disk

end Scaffold
