import Scaffold.Proofs.Disk.Ground

namespace Scaffold
set_option autoImplicit true

namespace Disk

/-- A later state that has new directories and is otherwise the same. -/
structure Widens (d d' : Disk) : Prop where
  plain : d'.Plain
  working : d'.workingDirectory = d.workingDirectory
  get? : ∀ l, d'.get? l = d.get? l ∨ (d.get? l = none ∧ d'.get? l = some .directory)

theorem Plain.widens (hd : Plain d) : d.Widens d :=
  ⟨hd, rfl, fun _ => .inl rfl⟩

theorem Widens.keeps (h : Widens d d') : d.Keeps d' := by
  refine ⟨h.plain, h.working, ?_⟩
  intro l hl
  rcases h.get? l with heq | ⟨hnone, _⟩
  · rw [heq, hl]
  · cases hnone.symm.trans hl

theorem Widens.trans (h : Widens d d') (h' : Widens d' d'') : d.Widens d'' := by
  refine ⟨h'.plain, h'.working.trans h.working, ?_⟩
  intro l
  rcases h'.get? l with heq' | ⟨hnone', hdir'⟩
  · rcases h.get? l with heq | ⟨hnone, hdir⟩
    · exact .inl (heq'.trans heq)
    · exact .inr ⟨hnone, heq'.trans hdir⟩
  · rcases h.get? l with heq | ⟨_, hdir⟩
    · exact .inr ⟨heq.symm.trans hnone', hdir'⟩
    · cases hnone'.symm.trans hdir

theorem Plain.widens_put {d : Disk} (hd : d.Plain) (hfree : d.get? l = none)
    (hparent : d.get? l.dropLast = some .directory) : d.Widens (d.put l .directory) := by
  have hne : l ≠ [] := by
    rintro rfl
    cases hfree
  refine ⟨hd.put hparent (by simp [hfree]) nofun, rfl, ?_⟩
  intro m
  rw [get?_put hne]
  split
  · rename_i hm
    exact .inr ⟨hm ▸ hfree, rfl⟩
  · exact .inl rfl

theorem widens_makeDirectory {d : Disk} (hd : d.Plain) (h : d.makeDirectory p = .ok d') :
    d.Widens d' := by
  unfold makeDirectory at h
  split at h
  · rename_i l hfind
    cases h
    obtain ⟨hfree, hparent⟩ := get?_of_find_absent hd hfind
    exact hd.widens_put hfree hparent
  · cases h
  · cases h

/-- What making one directory keeps, making all that lead to a directory keeps, too. -/
theorem makeDirectories_induction {P : Disk → Prop} {d : Disk} (hd : P d)
    (hmake : ∀ d p d', P d → d.makeDirectory p = .ok d' → P d') (cs : List Component) :
    P (d.makeDirectories cs).1 := by
  induction cs with
  | nil => exact hd
  | cons c cs ih =>
    rw [makeDirectories]
    split
    · rename_i d' hmade
      exact hmake d _ d' hd hmade
    · split
      · rename_i d' hrest
        rw [hrest] at ih
        split
        · rename_i d'' hmade
          exact hmake d' _ d'' ih hmade
        · exact ih
      · exact ih
    · exact hd

theorem widens_makeDirectories {d : Disk} (hd : d.Plain) (cs : List Component) :
    d.Widens (d.makeDirectories cs).1 :=
  makeDirectories_induction hd.widens
    (fun _ _ _ h hmade => h.trans (widens_makeDirectory h.plain hmade)) cs

theorem writeText_eq_ok {d : Disk} (hd : d.Plain) (h : d.writeText p text = .ok d') :
    ∃ s, d.find p true = .ok s ∧ d.get? s.place ≠ some .directory ∧
      d.get? s.place.dropLast = some .directory ∧ d' = d.put s.place (.file text.toUTF8) := by
  unfold writeText at h
  split at h
  · rename_i l content hfind
    have hget := get?_of_find_present hfind
    cases h
    exact ⟨_, hfind, by simp [Spot.place, hget], hd.rooted hget, rfl⟩
  · cases h
  · rename_i l hfind
    obtain ⟨hfree, hparent⟩ := get?_of_find_absent hd hfind
    cases h
    exact ⟨_, hfind, by simp [Spot.place, hfree], hparent, rfl⟩
  · cases h

/-- A file is saved at the place to which its path leads once its directories are made. -/
theorem save_cases {d : Disk} (hd : d.Plain) (p : Path) (text : String) :
    ∃ d', d.Widens d' ∧
      ((∃ e, d.save p text = (d', .error e)) ∨
        ∃ s, d'.find p true = .ok s ∧ d'.get? s.place ≠ some .directory ∧
          d'.get? s.place.dropLast = some .directory ∧
          d.save p text = (d'.put s.place (.file text.toUTF8), .ok ())) := by
  have hwidens := widens_makeDirectories hd p.parentComponents.reverse
  cases hmade : d.makeDirectories p.parentComponents.reverse with
  | mk d' made =>
    rw [hmade] at hwidens
    refine ⟨d', hwidens, ?_⟩
    cases made with
    | error e => exact .inl ⟨e, by simp [save, hmade]⟩
    | ok _ =>
      cases hwritten : d'.writeText p text with
      | error e => exact .inl ⟨e, by simp [save, hmade, hwritten]⟩
      | ok d'' =>
        obtain ⟨s, hfind, hplace, hparent, rfl⟩ := writeText_eq_ok hwidens.plain hwritten
        exact .inr ⟨s, hfind, hplace, hparent, by simp [save, hmade, hwritten]⟩

/-- The same file stands at a place, or no file. -/
def SameFile (d d' : Disk) (l : Location) : Prop :=
  ∀ content, d'.get? l = some (.file content) ↔ d.get? l = some (.file content)

theorem SameFile.refl (d : Disk) (l : Location) : d.SameFile d l :=
  fun _ => .rfl

theorem SameFile.trans (h : SameFile d d' l) (h' : SameFile d' d'' l) : SameFile d d'' l :=
  fun content => (h' content).trans (h content)

theorem SameFile.symm (h : SameFile d d' l) : SameFile d' d l :=
  fun content => (h content).symm

theorem SameFile.of_eq (h : get? d' l = get? d l) : SameFile d d' l := by
  intro content
  rw [h]

theorem Widens.sameFile (h : Widens d d') (l : Location) : d.SameFile d' l := by
  intro content
  rcases h.get? l with heq | ⟨hnone, hdir⟩
  · rw [heq]
  · simp [hnone, hdir]

theorem Plain.keeps_put {d : Disk} (hd : d.Plain)
    (hparent : d.get? l.dropLast = some .directory) (hl : d.get? l ≠ some .directory)
    (content : ByteArray) : d.Keeps (d.put l (.file content)) := by
  have hne : l ≠ [] := by
    rintro rfl
    exact hl rfl
  refine ⟨hd.put hparent hl nofun, rfl, ?_⟩
  intro m hm
  rw [get?_put hne, if_neg, hm]
  rintro rfl
  exact hl hm

theorem keeps_save {d : Disk} (hd : d.Plain) (p : Path) (text : String) :
    d.Keeps (d.save p text).1 := by
  obtain ⟨d', hwidens, ⟨e, hsave⟩ | ⟨s, _, hplace, hparent, hsave⟩⟩ := save_cases hd p text
  · rw [hsave]
    exact hwidens.keeps
  · rw [hsave]
    exact hwidens.keeps.trans (hwidens.plain.keeps_put hparent hplace _)

theorem makeDirectories_of_stands {d : Disk}
    (h : ∀ follow, d.find (.ofComponents cs.reverse) follow = .ok (.present q .directory)) :
    d.makeDirectories cs = (d, .ok ()) := by
  cases cs with
  | nil => rfl
  | cons c cs =>
    have hthere : d.makeDirectory (.ofComponents (c :: cs).reverse) = .error .alreadyExists := by
      simp only [makeDirectory, h]
    have hdirectory : d.isDirectory (.ofComponents (c :: cs).reverse) = true := by
      simp only [isDirectory, lookUp?, h, beq_self_eq_true]
    simp only [makeDirectories, hthere, hdirectory, if_true]

namespace Follows

theorem of_names {d : Disk} (hd : d.Plain) (h : d.get? (b ++ ns) = some .directory)
    (hns : ∀ n ∈ ns, ProperName n) (hshort : ∀ n ∈ ns, n.utf8ByteSize ≤ longestName) :
    Follows d b ns (b ++ ns) := by
  induction ns generalizing b with
  | nil =>
    rw [List.append_nil] at h ⊢
    exact .here h
  | cons n ns ih =>
    have hb := hd.directory_of_append h (List.cons_ne_nil _ _)
    have hn := hns n List.mem_cons_self
    rw [List.append_cons] at h ⊢
    exact .down hb hn.ne_dot hn.ne_dots (hshort n List.mem_cons_self)
      (ih h (fun m hm => hns m (List.mem_cons_of_mem _ hm))
        fun m hm => hshort m (List.mem_cons_of_mem _ hm))

theorem reach_eq {d : Disk} (hd : d.Plain) (h : Follows d l ns q) :
    d.reach l ns = .ok (.present q .directory) := by
  have happend := h.reach_append hd []
  rwa [List.append_nil, reach_nil h.target] at happend

end Follows

namespace Ground

variable {d d' : Disk} {G : Ground d} {p : Path}

theorem find_front_later (hkeeps : d.Keeps d') (hne : G.front ≠ []) (follow : Bool) :
    d'.find (.ofComponents G.front) follow = .ok (.present G.base .directory) := by
  have hfind := find_front hne
  have htext := text_ne_empty_of_find hfind
  have hwalk := (follows_front hne).mono hkeeps.directories
  rw [find_eq_reach G.plain htext] at hfind
  rw [find_eq_reach hkeeps.plain htext, hkeeps.start, hwalk.reach_eq hkeeps.plain]
  split at hfind
  · cases hfind
  · rename_i hsize
    rw [if_neg hsize]

theorem Bears.parentComponents (h : G.Bears p) :
    p.parentComponents = G.front ++ (G.names p).dropLast.map .name := by
  have hne : (G.names p).map Component.name ≠ [] := by simpa using h.names_ne_nil
  rw [Path.parentComponents, h.components, List.dropLast_append_of_ne_nil hne, List.map_dropLast]

theorem Bears.size_parent_le (h : G.Bears p) :
    (G.parent (G.names p).dropLast).text.utf8ByteSize ≤ p.text.utf8ByteSize := by
  rw [parent, ← h.parentComponents]
  have hpre : p.parentComponents <+: p.components := List.dropLast_prefix _
  exact (Path.size_ofComponents_le hpre).trans p.size_components_le

theorem makeDirectories_of_directory (h : G.Bears p) (hkeeps : d.Keeps d')
    (hsize : (G.parent (G.names p).dropLast).text.utf8ByteSize ≤ longestPath)
    (hshort : ∀ n ∈ (G.names p).dropLast, n.utf8ByteSize ≤ longestName)
    (hdir : d'.get? (G.base ++ (G.names p).dropLast) = some .directory) :
    d'.makeDirectories p.parentComponents.reverse = (d', .ok ()) := by
  rw [h.parentComponents]
  by_cases hms : (G.names p).dropLast = []
  · rw [hms, List.map_nil, List.append_nil]
    by_cases hfront : G.front = []
    · rw [hfront]
      rfl
    · apply makeDirectories_of_stands
      rw [List.reverse_reverse]
      exact find_front_later hkeeps hfront
  · have hpre : (G.names p).dropLast <+: G.names p := List.dropLast_prefix _
    have hwalk := Follows.of_names hkeeps.plain hdir
      (fun n hn => h.proper n (hpre.subset hn)) hshort
    apply makeDirectories_of_stands
    intro follow
    have hfind := find_parent h hpre hms hkeeps follow
    rw [if_neg (Nat.not_lt.mpr hsize), hwalk.reach_eq hkeeps.plain] at hfind
    rwa [List.reverse_reverse]

/-- Saving over a file that is there succeeds and changes nothing else. -/
theorem save_of_file (h : G.Bears p) (hkeeps : d.Keeps d')
    (hfind : d'.find p true = .ok (.present l (.file content))) (text : String) :
    d'.save p text = (d'.put l (.file text.toUTF8), .ok ()) := by
  obtain ⟨hplace, hsize, hshort⟩ := find_ok h hkeeps hfind
  obtain rfl : l = G.place p := hplace
  have hparent : d'.get? (G.base ++ (G.names p).dropLast) = some .directory := by
    rw [← List.dropLast_append_of_ne_nil h.names_ne_nil]
    exact hkeeps.plain.rooted (get?_of_find_present hfind)
  have hmade := makeDirectories_of_directory h hkeeps (h.size_parent_le.trans hsize)
    (fun n hn => hshort n (List.dropLast_subset _ hn)) hparent
  rw [save, hmade]
  simp only [writeText, hfind]

theorem sameFile_save (h : G.Bears p) (hkeeps : d.Keeps d') (hl : l ≠ G.place p)
    (text : String) : d'.SameFile (d'.save p text).1 l := by
  obtain ⟨d'', hwidens, ⟨e, hsave⟩ | ⟨s, hfind, hplace, hparent, hsave⟩⟩ :=
    save_cases hkeeps.plain p text
  · rw [hsave]
    exact hwidens.sameFile l
  · rw [hsave]
    obtain ⟨hs, _⟩ := find_ok h (hkeeps.trans hwidens.keeps) hfind
    apply (hwidens.sameFile l).trans
    apply SameFile.of_eq
    rw [get?_put, if_neg (hs ▸ hl)]
    intro hnil
    rw [hnil] at hplace
    exact hplace rfl

end Ground

end Disk

end Scaffold
