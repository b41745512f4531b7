import Scaffold.Proofs.Disk.Elsewhere
import Scaffold.Proofs.Disk.Saving

namespace Scaffold
set_option autoImplicit true

namespace Disk

variable {d : Disk}

theorem find_put (h : d.find p follow = .ok s) (hm : d.Takes s.place) (content : ByteArray) :
    (d.put s.place (.file content)).find p follow = .ok (.present s.place (.file content)) := by
  obtain ⟨s', hs', hplace⟩ := (elsewhere_put hm content).endsAt_find ⟨s, h, rfl⟩
  have hentry := get?_of_find hs'
  rw [hplace, get?_put hm.ne_nil, if_pos rfl] at hentry
  have hspot : s' = .present s.place (.file content) := eq_of_place hplace hentry.symm
  rw [hs', hspot]

theorem sameFile_put (h : d.get? l = none) (m : Location) :
    d.SameFile (d.put l .directory) m := by
  have hne : l ≠ [] := by
    rintro rfl
    cases h
  intro content
  rw [get?_put hne]
  split
  · rename_i hm
    simp [hm, h]
  · rfl

theorem sameFile_makeDirectory (h : d.makeDirectory p = .ok d') (l : Location) :
    d.SameFile d' l := by
  unfold makeDirectory at h
  split at h
  · rename_i m hfind
    cases h
    exact sameFile_put (get?_of_find hfind) l
  · cases h
  · cases h

theorem sameFile_makeDirectories (d : Disk) (cs : List Component) (l : Location) :
    d.SameFile (d.makeDirectories cs).1 l :=
  makeDirectories_induction (P := fun d' => d.SameFile d' l) (.refl d l)
    (fun _ _ _ h hmade => h.trans (sameFile_makeDirectory hmade l)) cs

theorem sameFile_put_of_ne (h : d.Takes l) (content : ByteArray) (hk : k ≠ l) :
    d.SameFile (d.put l (.file content)) k := by
  apply SameFile.of_eq
  rw [get?_put h.ne_nil, if_neg hk]

theorem find_writeText (h : d.writeText p text = .ok d') :
    ∃ l, d'.find p true = .ok (.present l (.file text.toUTF8)) ∧
      ∀ k, k ≠ l → d.SameFile d' k := by
  unfold writeText at h
  split at h
  · rename_i l content hfind
    cases h
    have htakes : d.Takes l := .inr ⟨content, get?_of_find_present hfind⟩
    exact ⟨l, find_put hfind htakes _, fun k hk => sameFile_put_of_ne htakes _ hk⟩
  · cases h
  · rename_i l hfind
    cases h
    have htakes : d.Takes l := .inl (get?_of_find hfind)
    exact ⟨l, find_put hfind htakes _, fun k hk => sameFile_put_of_ne htakes _ hk⟩
  · cases h

/-- A file that was saved is found by its path, and no other file has changed. -/
theorem find_save (h : d.save p text = (d', .ok ())) :
    ∃ l, d'.find p true = .ok (.present l (.file text.toUTF8)) ∧
      ∀ k, k ≠ l → d.SameFile d' k := by
  have hmade := sameFile_makeDirectories d p.parentComponents.reverse
  unfold save at h
  split at h
  · rename_i made hdirectories
    rw [hdirectories] at hmade
    split at h
    · rename_i hwritten
      cases h
      obtain ⟨l, hfind, hothers⟩ := find_writeText hwritten
      exact ⟨l, hfind, fun k hk => (hmade k).trans (hothers k hk)⟩
    · cases h
  · rename_i hrefused
    exact absurd h (hrefused d')

theorem sameFile_save_of_error (h : d.save p text = (d', .error e)) (l : Location) :
    d.SameFile d' l := by
  have hmade := sameFile_makeDirectories d p.parentComponents.reverse l
  unfold save at h
  split at h
  · rename_i made
    rw [made] at hmade
    split at h
    · cases h
    · cases h
      exact hmade
  · rw [h] at hmade
    exact hmade

end Disk

end Scaffold
