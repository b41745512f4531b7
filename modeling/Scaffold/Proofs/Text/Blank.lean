import Scaffold.Proofs.Text.Ends

namespace Scaffold.Text
set_option autoImplicit true

/-- A text without blanks. -/
def NoBlank (cs : List Char) : Prop :=
  ∀ c ∈ cs, isBlank c = false

theorem NoBlank.append (h : NoBlank cs) (h' : NoBlank ds) : NoBlank (cs ++ ds) :=
  fun c hc => (List.mem_append.mp hc).elim (h c) (h' c)

theorem trimChars_of_noBlank (h : NoBlank cs) : trimChars cs = cs := by
  rw [trimChars_eq_strip, strip_eq_self_iff]
  exact ⟨fun c hc => h c (List.mem_of_mem_head? hc), fun c hc => h c (List.mem_of_getLast? hc)⟩

theorem trimChars_trimChars (cs : List Char) : trimChars (trimChars cs) = trimChars cs := by
  rw [trimChars_eq_strip, trimChars_eq_strip, strip_eq_self_iff]
  exact ⟨freeFront_strip isBlank cs, freeBack_strip isBlank cs⟩

theorem trim_trim (s : String) : trim (trim s) = trim s := by
  rw [trim, trim, String.toList_ofList, trimChars_trimChars]

theorem splitWhere_of_none (h : ∀ c ∈ cs, p c = false) : splitWhere p cs = [cs] := by
  induction cs with
  | nil => rfl
  | cons c cs ih =>
    rw [splitWhere, h c List.mem_cons_self, ih fun d hd => h d (List.mem_cons_of_mem _ hd)]
    rfl

theorem splitWhere_congr (h : ∀ c ∈ cs, p c = q c) : splitWhere p cs = splitWhere q cs := by
  induction cs with
  | nil => rfl
  | cons c cs ih =>
    rw [splitWhere, splitWhere, h c List.mem_cons_self,
      ih fun d hd => h d (List.mem_cons_of_mem _ hd)]

theorem splitWhere_ne_nil (p : Char → Bool) (cs : List Char) : splitWhere p cs ≠ [] := by
  cases cs with
  | nil => exact List.cons_ne_nil _ _
  | cons c cs =>
    rw [splitWhere]
    split
    · exact List.cons_ne_nil _ _
    · split <;> exact List.cons_ne_nil _ _

theorem splitWhere_append (hs : p s = true) (cs ds : List Char) :
    splitWhere p (cs ++ s :: ds) = splitWhere p cs ++ splitWhere p ds := by
  induction cs with
  | nil =>
    rw [List.nil_append]
    exact if_pos hs
  | cons c cs ih =>
    obtain ⟨w, ws, hw⟩ := List.exists_cons_of_ne_nil (splitWhere_ne_nil p cs)
    rw [List.cons_append, splitWhere, splitWhere, ih, hw]
    split <;> rfl

theorem splitWhere_append_of_none (h : ∀ c ∈ cs, p c = false) (hds : splitWhere p ds = w :: ws) :
    splitWhere p (cs ++ ds) = (cs ++ w) :: ws := by
  induction cs with
  | nil => exact hds
  | cons c cs ih =>
    rw [List.cons_append, splitWhere, h c List.mem_cons_self,
      ih fun d hd => h d (List.mem_cons_of_mem _ hd)]
    rfl

theorem splitWhere_append_cons (h : ∀ c ∈ cs, p c = false) (hs : p s = true) (ds : List Char) :
    splitWhere p (cs ++ s :: ds) = cs :: splitWhere p ds := by
  rw [splitWhere_append hs, splitWhere_of_none h]
  rfl

/-- Cutting at a character and putting it back between the pieces gives the text. -/
theorem intercalate_splitWhere (s : Char) (cs : List Char) :
    [s].intercalate (splitWhere (· == s) cs) = cs := by
  induction cs with
  | nil => rfl
  | cons c cs ih =>
    obtain ⟨w, ws, hw⟩ := List.exists_cons_of_ne_nil (splitWhere_ne_nil (· == s) cs)
    rw [hw] at ih
    rw [splitWhere, hw]
    split
    · rename_i hc
      rw [List.intercalate_cons_cons, ih, beq_iff_eq.mp hc]
      rfl
    · cases ws with
      | nil =>
        rw [List.intercalate_singleton] at ih ⊢
        rw [ih]
      | cons v ws =>
        rw [List.intercalate_cons_cons] at ih ⊢
        rw [List.cons_append, List.cons_append, ih]

theorem cons_intercalate (s : Char) (h : ws ≠ []) :
    s :: [s].intercalate ws = ws.flatMap (s :: ·) := by
  induction ws with
  | nil => exact absurd rfl h
  | cons w ws ih =>
    cases ws with
    | nil => simp
    | cons v ws =>
      rw [List.intercalate_cons_cons, List.flatMap_cons, ← ih (List.cons_ne_nil _ _)]
      simp

theorem mem_splitWhere (hw : w ∈ splitWhere p cs) (hc : c ∈ w) : p c = false ∧ c ∈ cs := by
  induction cs generalizing w with
  | nil =>
    rw [splitWhere, List.mem_singleton] at hw
    subst hw
    cases hc
  | cons d cs ih =>
    have htail : ∀ w' ∈ splitWhere p cs, c ∈ w' → p c = false ∧ c ∈ d :: cs := by
      intro w' hw' hc'
      obtain ⟨hp, hm⟩ := ih hw' hc'
      exact ⟨hp, List.mem_cons_of_mem _ hm⟩
    rw [splitWhere] at hw
    split at hw
    · rcases List.mem_cons.mp hw with rfl | hw
      · cases hc
      · exact htail w hw hc
    · rename_i hd
      split at hw
      · rw [List.mem_singleton] at hw
        subst hw
        obtain rfl := List.mem_singleton.mp hc
        exact ⟨by simpa using hd, List.mem_cons_self⟩
      · rename_i v vs hv
        rcases List.mem_cons.mp hw with rfl | hw
        · rcases List.mem_cons.mp hc with rfl | hc
          · exact ⟨by simpa using hd, List.mem_cons_self⟩
          · exact htail v (by simp [hv]) hc
        · exact htail w (by simp [hv, hw]) hc

end Scaffold.Text
