import Scaffold.Proofs.Disk.Walk

namespace Scaffold
set_option autoImplicit true

namespace Disk

def Takes (d : Disk) (l : Location) : Prop :=
  d.get? l = none ∨ ∃ content, d.get? l = some (.file content)

theorem Takes.ne_nil {d : Disk} (h : d.Takes l) : l ≠ [] := by
  rintro rfl
  rcases h with h | ⟨content, h⟩ <;> cases h

theorem Takes.ne_directory {d : Disk} (h : d.Takes l) : d.get? l ≠ some .directory := by
  rcases h with h | ⟨content, h⟩ <;> simp [h]

/-- The same stands everywhere but at one place, where either has a file or nothing. -/
structure Elsewhere (d d' : Disk) (m : Location) : Prop where
  working : d'.workingDirectory = d.workingDirectory
  get? : ∀ l, l ≠ m → d'.get? l = d.get? l
  takes : d.Takes m
  takes' : d'.Takes m

def EndsAt (r : Except OsError Spot) (l : Location) : Prop :=
  ∃ s, r = .ok s ∧ s.place = l

instance (r : Except OsError Spot) (l : Location) : Decidable (EndsAt r l) :=
  match r with
  | .ok s => decidable_of_iff (s.place = l) ⟨fun h => ⟨s, rfl, h⟩, fun ⟨_, rfl, h⟩ => h⟩
  | .error _ => .isFalse nofun

theorem Takes.endsAt_enterWith_iff {d : Disk} (hm : d.Takes m) (hnext : l ++ [n] = m) :
    EndsAt (d.enterWith follow onLink l n ns) k ↔ ns = [] ∧ m = k := by
  cases ns with
  | nil =>
    rcases hm with hfree | ⟨content, hfile⟩
    · simp [EndsAt, enterWith, hnext, hfree, Spot.place]
    · simp [EndsAt, enterWith, hnext, hfile, walkWith, Spot.place]
  | cons =>
    rcases hm with hfree | ⟨content, hfile⟩
    · simp [EndsAt, enterWith, hnext, hfree]
    · simp [EndsAt, enterWith, hnext, hfile, walkWith]

theorem lookUp?_eq_some_iff {d : Disk} :
    d.lookUp? p = some e ↔ ∃ l, d.find p true = .ok (.present l e) := by
  rw [lookUp?]
  split
  · rename_i hfind
    simp [hfind]
  · rename_i hfind
    simp only [reduceCtorEq, false_iff, not_exists]
    exact fun l => hfind l e

theorem toOption_readText (d : Disk) (p : Path) :
    (d.readText p).toOption = (d.lookUp? p).bind fun
      | .file content => String.fromUTF8? content
      | _ => none := by
  rw [readText, lookUp?]
  cases d.find p true with
  | error e => rfl
  | ok s =>
    cases s with
    | absent l => rfl
    | present l e =>
      cases e with
      | file content =>
        simp only [Option.bind_some]
        cases String.fromUTF8? content <;> rfl
      | directory => rfl
      | link target => rfl

theorem eq_of_place {s s' : Spot} (hplace : s.place = s'.place) (hentry : s.entry? = s'.entry?) :
    s = s' := by
  cases s with
  | present l e =>
    cases s' with
    | present l' e' =>
      obtain rfl : l = l' := hplace
      obtain rfl := Option.some.inj hentry
      rfl
    | absent l' => cases hentry
  | absent l =>
    cases s' with
    | present l' e' => cases hentry
    | absent l' => exact congrArg Spot.absent hplace

theorem elsewhere_put {d : Disk} (hm : d.Takes m) (content : ByteArray) :
    d.Elsewhere (d.put m (.file content)) m where
  working := rfl
  get? l hl := by rw [get?_put hm.ne_nil, if_neg hl]
  takes := hm
  takes' := .inr ⟨content, by rw [get?_put hm.ne_nil, if_pos rfl]⟩

namespace Elsewhere

variable {d d' : Disk}

theorem symm (h : d.Elsewhere d' m) : d'.Elsewhere d m :=
  ⟨h.working.symm, fun l hl => (h.get? l hl).symm, h.takes', h.takes⟩

theorem directory (h : d.Elsewhere d' m) (hl : d.get? l = some .directory) :
    d'.get? l = some .directory := by
  rw [h.get?, hl]
  rintro rfl
  exact h.takes.ne_directory hl

theorem endsAt_enterWith (h : d.Elsewhere d' m)
    (hlink : ∀ l ns, EndsAt (onLink l ns) k → EndsAt (onLink' l ns) k)
    (hwalk : ∀ l, EndsAt (d.walkWith follow onLink l ns) k →
      EndsAt (d'.walkWith follow onLink' l ns) k)
    (hs : EndsAt (d.enterWith follow onLink l n ns) k) :
    EndsAt (d'.enterWith follow onLink' l n ns) k := by
  by_cases hnext : l ++ [n] = m
  · rw [h.takes.endsAt_enterWith_iff hnext] at hs
    rwa [h.takes'.endsAt_enterWith_iff hnext]
  · rw [enterWith, h.get? _ hnext]
    obtain ⟨s, hs, rfl⟩ := hs
    unfold enterWith at hs
    split at hs
    · exact ⟨s, hs, rfl⟩
    · split at hs
      · rename_i hstop
        exact ⟨s, by rw [if_pos hstop]; exact hs, rfl⟩
      · rename_i hon
        rw [if_neg hon]
        exact hlink _ _ ⟨s, hs, rfl⟩
    · exact hwalk _ ⟨s, hs, rfl⟩

theorem endsAt_walkWith (h : d.Elsewhere d' m)
    (hlink : ∀ l ns, EndsAt (onLink l ns) k → EndsAt (onLink' l ns) k)
    (hs : EndsAt (d.walkWith follow onLink l ns) k) :
    EndsAt (d'.walkWith follow onLink' l ns) k := by
  induction ns generalizing l with
  | nil =>
    have hl : l = k := by
      obtain ⟨s, hs, rfl⟩ := hs
      rw [walkWith] at hs
      split at hs <;> cases hs <;> rfl
    rw [walkWith, ← hl]
    split
    · exact ⟨_, rfl, rfl⟩
    · exact ⟨_, rfl, rfl⟩
  | cons n ns ih =>
    have hdir : d.get? l = some .directory := by
      obtain ⟨s, hs, _⟩ := hs
      exact directory_of_walkWith hs
    rw [walkWith_cons hdir] at hs
    rw [walkWith_cons (h.directory hdir)]
    split
    · rename_i hdot
      rw [if_pos hdot] at hs
      exact ih hs
    · rename_i hdot
      rw [if_neg hdot] at hs
      split
      · rename_i hdots
        rw [if_pos hdots] at hs
        exact ih hs
      · rename_i hdots
        rw [if_neg hdots] at hs
        split
        · rename_i hsize
          rw [if_pos hsize] at hs
          obtain ⟨_, ⟨⟩, _⟩ := hs
        · rename_i hsize
          rw [if_neg hsize] at hs
          exact h.endsAt_enterWith hlink (fun _ => ih) hs

theorem endsAt_walk (h : d.Elsewhere d' m) (hs : EndsAt (d.walk follow links l ns) k) :
    EndsAt (d'.walk follow links l ns) k := by
  induction links generalizing follow l ns with
  | zero =>
    refine h.endsAt_walkWith ?_ hs
    rintro _ _ ⟨_, ⟨⟩, _⟩
  | succ links ih => exact h.endsAt_walkWith (fun _ _ => ih) hs

/-- A path leads to the same place in both file systems. -/
theorem endsAt_find (h : d.Elsewhere d' m) (hs : EndsAt (d.find p follow) k) :
    EndsAt (d'.find p follow) k := by
  unfold find at hs ⊢
  rw [h.working]
  split
  · rename_i htext
    rw [if_pos htext] at hs
    obtain ⟨_, ⟨⟩, _⟩ := hs
  · rename_i htext
    rw [if_neg htext] at hs
    split
    · rename_i hsize
      rw [if_pos hsize] at hs
      obtain ⟨_, ⟨⟩, _⟩ := hs
    · rename_i hsize
      rw [if_neg hsize] at hs
      exact h.endsAt_walk hs

theorem find_eq_ok (h : d.Elsewhere d' m) (hs : d.find p follow = .ok s) (hne : s.place ≠ m) :
    d'.find p follow = .ok s := by
  obtain ⟨s', hs', hplace⟩ := h.endsAt_find ⟨s, hs, rfl⟩
  have hentry : s'.entry? = s.entry? := by
    rw [← get?_of_find hs', ← get?_of_find hs, hplace, h.get? _ hne]
  rw [hs', eq_of_place hplace hentry]

theorem find_eq_ok_iff (h : d.Elsewhere d' m) (hp : ¬ EndsAt (d.find p follow) m) (s : Spot) :
    d'.find p follow = .ok s ↔ d.find p follow = .ok s := by
  constructor
  · intro hs
    refine h.symm.find_eq_ok hs ?_
    rintro rfl
    exact hp (h.symm.endsAt_find ⟨s, hs, rfl⟩)
  · intro hs
    refine h.find_eq_ok hs ?_
    rintro rfl
    exact hp ⟨s, hs, rfl⟩

/-- A path that does not lead to the place finds what it finds in the other file system. -/
theorem lookUp? (h : d.Elsewhere d' m) (hp : ¬ EndsAt (d.find p true) m) :
    d'.lookUp? p = d.lookUp? p := by
  ext e
  rw [lookUp?_eq_some_iff, lookUp?_eq_some_iff]
  exact exists_congr fun l => h.find_eq_ok_iff hp _

end Elsewhere

end Disk

end Scaffold
