import Mathlib.Data.List.DropRight
import Scaffold.Text.Blank

namespace Scaffold.Text
set_option autoImplicit true

def FreeFront (p : Char → Bool) (cs : List Char) : Prop :=
  ∀ c, cs.head? = some c → p c = false

def FreeBack (p : Char → Bool) (cs : List Char) : Prop :=
  ∀ c, cs.getLast? = some c → p c = false

def strip (p : Char → Bool) (cs : List Char) : List Char :=
  dropEndWhile p (cs.dropWhile p)

theorem trimChars_eq_strip (cs : List Char) : trimChars cs = strip isBlank cs :=
  rfl

theorem freeBack_iff : FreeBack p cs ↔ FreeFront p cs.reverse := by
  rw [FreeBack, FreeFront, List.head?_reverse]

theorem freeFront_dropWhile (p : Char → Bool) (cs : List Char) : FreeFront p (cs.dropWhile p) := by
  intro c hc
  have hfirst := List.head?_dropWhile_not p cs
  rwa [hc] at hfirst

theorem dropWhile_eq_self_iff : cs.dropWhile p = cs ↔ FreeFront p cs := by
  constructor
  · intro h
    rw [← h]
    exact freeFront_dropWhile p cs
  · intro h
    cases cs with
    | nil => rfl
    | cons c cs => rw [List.dropWhile_cons, h c rfl]; rfl

theorem freeBack_dropEndWhile (p : Char → Bool) (cs : List Char) :
    FreeBack p (dropEndWhile p cs) := by
  rw [freeBack_iff, dropEndWhile, List.reverse_reverse]
  exact freeFront_dropWhile p cs.reverse

theorem dropEndWhile_eq_self_iff : dropEndWhile p cs = cs ↔ FreeBack p cs := by
  rw [freeBack_iff, ← dropWhile_eq_self_iff, dropEndWhile, List.reverse_eq_iff]

theorem FreeFront.of_isPrefix (h : FreeFront p cs) (hds : ds <+: cs) : FreeFront p ds := by
  obtain ⟨rest, rfl⟩ := hds
  intro c hc
  exact h c (by rw [List.head?_append, hc]; rfl)

theorem FreeBack.of_isSuffix (h : FreeBack p cs) (hds : ds <:+ cs) : FreeBack p ds := by
  obtain ⟨rest, rfl⟩ := hds
  intro c hc
  exact h c (by rw [List.getLast?_append, hc]; rfl)

theorem freeFront_strip (p : Char → Bool) (cs : List Char) : FreeFront p (strip p cs) :=
  (freeFront_dropWhile p cs).of_isPrefix (List.rdropWhile_prefix p _)

theorem freeBack_strip (p : Char → Bool) (cs : List Char) : FreeBack p (strip p cs) :=
  freeBack_dropEndWhile p _

theorem strip_eq_self_iff : strip p cs = cs ↔ FreeFront p cs ∧ FreeBack p cs := by
  constructor
  · intro h
    rw [← h]
    exact ⟨freeFront_strip p cs, freeBack_strip p cs⟩
  · rintro ⟨hfront, hback⟩
    rw [strip, dropWhile_eq_self_iff.mpr hfront, dropEndWhile_eq_self_iff.mpr hback]

theorem strip_isInfix (p : Char → Bool) (cs : List Char) : strip p cs <:+: cs :=
  (List.rdropWhile_prefix p _).isInfix.trans (List.dropWhile_suffix p).isInfix

/-- Two classes taken off one after the other leave a text alone only if each of them does. -/
theorem eq_of_isInfix_strip (h : cs <:+: strip p cs) : strip p cs = cs :=
  (h.eq_of_length (Nat.le_antisymm h.length_le (strip_isInfix p cs).length_le)).symm

end Scaffold.Text
