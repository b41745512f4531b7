import Scaffold.Php.Lexer
import Scaffold.Proofs.Source.LineEnds

namespace Scaffold.Php
set_option autoImplicit true

open Lexeme

/-- The kinds of nodes that declare something. -/
def declaringKinds : List String :=
  ["namespace_definition", "class_declaration", "trait_declaration"]

def remarkKinds : List String := ["comment", "text_interpolation"]

/-- The letters with which these kinds start. -/
def kindLetters : List Char := ['n', 'c', 't']

/-- Whether a token of a shape is a leaf of the kind that it spells. -/
def Shape.isSpelled : Shape → Bool
  | delegation | quoteOpen | symbol => true
  | _ => false

/-- A step cuts the text in two. A name that it takes is a word, and what it takes as a leaf of its
own kind does not spell the kind of a declaration or a remark. -/
structure Step.Cuts (s : Step) (cs : List Char) : Prop where
  split : s.lexeme ++ s.rest = cs
  name : s.shape = some .name → s.lexeme ≠ [] ∧ ∀ c ∈ s.lexeme, isNameChar c = true
  spelled : ∀ shape, s.shape = some shape → shape.isSpelled = true →
    ∀ c ∈ s.lexeme.head?, c ∉ kindLetters

theorem notMem_kindLetters (h : isNameStart c = false) : c ∉ kindLetters := by
  intro hc
  simp only [kindLetters, List.mem_cons, List.not_mem_nil, or_false] at hc
  rcases hc with rfl | rfl | rfl <;> revert h <;> decide

namespace Step

variable {shape : Shape} {cs : List Char} {modes : List Mode}

theorem cuts_take (hname : shape ≠ .name) (hspelled : shape.isSpelled = false) :
    (take shape n cs modes).Cuts cs where
  split := List.take_append_drop n cs
  name h := absurd (Option.some.inj h) hname
  spelled shape' h h' := by
    cases h
    cases hspelled.symm.trans h'

theorem cuts_spelled (hname : shape ≠ .name) (hcs : ∀ c ∈ cs.head?, c ∉ kindLetters) :
    (take shape n cs modes).Cuts cs where
  split := List.take_append_drop n cs
  name h := absurd (Option.some.inj h) hname
  spelled _ _ _ c hc := by
    apply hcs
    cases n with
    | zero => cases hc
    | succ n =>
      rw [take, List.head?_take] at hc
      simpa using hc

theorem cuts_of_not_isNameStart (hname : shape ≠ .name) (hcs : cs.head? = some c)
    (hc : ¬ isNameStart c = true) : (take shape n cs modes).Cuts cs := by
  apply cuts_spelled hname
  intro d hd
  obtain rfl := Option.some.inj (hcs.symm.trans hd)
  exact notMem_kindLetters (eq_false_of_ne_true hc)

theorem cuts_skip : (skip n cs modes).Cuts cs where
  split := List.take_append_drop n cs
  name := nofun
  spelled _ := nofun

theorem cuts_cutOff (hname : shape ≠ .name) (hspelled : shape.isSpelled = false) :
    (cutOff shape cs modes).Cuts cs where
  split := List.append_nil cs
  name h := absurd (Option.some.inj h) hname
  spelled shape' h h' := by
    cases h
    cases hspelled.symm.trans h'

theorem cuts_name (hcs : cs.head? = some c) (hc : isNameStart c = true) :
    (take .name (nameLength cs) cs modes).Cuts cs where
  split := List.take_append_drop _ cs
  name _ := by
    have hlexeme : cs.take (nameLength cs) = cs.takeWhile isNameChar :=
      List.prefix_iff_eq_take.mp (List.takeWhile_prefix _) |>.symm
    rw [take, hlexeme]
    refine ⟨?_, List.all_eq_true.mp List.all_takeWhile⟩
    obtain ⟨cs, rfl⟩ := List.head?_eq_some_iff.mp hcs
    rw [List.takeWhile_cons_of_pos (by rw [isNameChar, hc]; rfl)]
    exact List.cons_ne_nil _ _
  spelled _ h h' := by
    cases h
    cases h'

end Step

namespace Quotation

open Step

theorem cuts_embeddingStep (h : startsEmbedding cs = true) (modes : List Mode) :
    (embeddingStep cs modes).Cuts cs := by
  have hcs : ∀ c ∈ cs.head?, c ∉ kindLetters := by
    unfold startsEmbedding at h
    split at h
    · rintro c ⟨⟩
      decide
    · rintro c ⟨⟩
      decide
    · cases h
  unfold embeddingStep
  split
  · exact cuts_spelled (by decide) hcs
  · exact cuts_spelled (by decide) hcs
  · exact cuts_take (by decide) rfl

theorem cuts_quotedStep (d : Char) (cs : List Char) (modes : List Mode) :
    (quotedStep d cs modes).Cuts cs := by
  unfold quotedStep
  split
  · exact cuts_take (by decide) rfl
  · split
    · rename_i hembedding
      exact cuts_embeddingStep hembedding modes
    · split
      · exact cuts_take (by decide) rfl
      · exact cuts_cutOff (by decide) rfl

theorem cuts_closeStep (label : List Char) (gap : Nat) (cs : List Char) (modes : List Mode) :
    (closeStep label gap cs modes).Cuts cs := by
  unfold closeStep
  extract_lets outer
  split
  · exact cuts_cutOff (by decide) rfl
  · exact cuts_take (by decide) rfl

theorem cuts_freshStep (label : List Char) (literal : Bool) (cs : List Char) (modes : List Mode) :
    (freshStep label literal cs modes).Cuts cs := by
  unfold freshStep
  extract_lets gap
  split
  · exact cuts_closeStep label _ cs modes
  · split
    · exact cuts_skip
    · exact cuts_take (by decide) rfl
    · exact cuts_take (by decide) rfl
    · split
      · exact cuts_take (by decide) rfl
      · exact cuts_cutOff (by decide) rfl
    · split_ifs
      · exact cuts_skip
      · exact cuts_skip
      · exact cuts_cutOff (by decide) rfl
    · exact cuts_cutOff (by decide) rfl

theorem cuts_labelledStep (label : List Char) (literal : Bool) (cs : List Char)
    (modes : List Mode) : (labelledStep label literal cs modes).Cuts cs := by
  have hclose : ∀ (b : Bool) (gap : Nat),
      (if b then closeStep label gap cs modes else cutOff .openString cs modes).Cuts cs := by
    intro b gap
    split
    · exact cuts_closeStep label gap cs modes
    · exact cuts_cutOff (by decide) rfl
  unfold labelledStep
  extract_lets gap line close
  split
  · exact hclose _ _
  · split
    · exact hclose _ _
    · split_ifs with _ hembedding
      · exact cuts_take (by decide) rfl
      · exact cuts_embeddingStep hembedding modes
      · exact cuts_take (by decide) rfl

theorem cuts_simpleStep (hcs : cs.head? = some c) (modes : List Mode) :
    (simpleStep c cs modes).Cuts cs := by
  unfold simpleStep
  extract_lets behind
  split_ifs with hname hdigit hbracket
  · exact cuts_name hcs hname
  · exact cuts_take (by decide) rfl
  · exact cuts_of_not_isNameStart (by decide) hcs hname
  · exact cuts_skip
  · split
    · exact cuts_take (by decide) rfl
    · exact cuts_of_not_isNameStart (by decide) hcs hname

end Quotation

namespace Lexer

open Step

theorem cuts_startStep (cs : List Char) (modes : List Mode) : (startStep cs modes).Cuts cs := by
  unfold startStep
  split
  · exact cuts_skip
  · split
    · exact cuts_take (by decide) rfl
    · exact cuts_take (by decide) rfl

theorem cuts_plain (cs : List Char) (modes : List Mode) (n : Nat) (r : List Char) :
    (codeStep.plain cs modes n r).Cuts cs := by
  unfold codeStep.plain
  split
  · exact cuts_take (by decide) rfl
  · exact cuts_cutOff (by decide) rfl

theorem cuts_sign {shape : Shape} (hname : shape ≠ .name) (hc : c ∉ kindLetters) (n : Nat)
    (cs : List Char) (modes : List Mode) : (take shape n (c :: cs) modes).Cuts (c :: cs) := by
  apply cuts_spelled hname
  rintro _ ⟨⟩
  exact hc

theorem cuts_delegation (h : startsFolded delegation cs = true) (n : Nat) (modes : List Mode) :
    (take .delegation n cs modes).Cuts cs := by
  apply cuts_spelled (by decide)
  rintro c hc
  obtain ⟨cs, rfl⟩ := List.head?_eq_some_iff.mp hc
  have hlower : c.toLower = 'y' := by
    have hfirst : delegation = 'y' :: delegation.tail := rfl
    rw [hfirst, startsFolded, Bool.and_eq_true, beq_iff_eq] at h
    exact h.1.symm
  simp only [kindLetters, List.mem_cons, List.not_mem_nil, or_false]
  rintro (rfl | rfl | rfl) <;> revert hlower <;> decide

theorem cuts_codeStep (hcs : cs.head? = some c) (modes : List Mode) :
    (codeStep c cs modes).Cuts cs := by
  unfold codeStep
  split
  · exact cuts_skip
  · split
    all_goals try exact cuts_take (by decide) rfl
    all_goals try exact cuts_plain _ _ _ _
    all_goals try exact cuts_sign (by decide) (by decide) _ _ _
    · split
      · exact cuts_take (by decide) rfl
      · exact cuts_cutOff (by decide) rfl
    · split
      · exact cuts_sign (by decide) (by decide) _ _ _
      · exact cuts_take (by decide) rfl
    · split
      · exact cuts_take (by decide) rfl
      · exact cuts_sign (by decide) (by decide) _ _ _
    · split_ifs with hdigit hdelegation hname
      · exact cuts_take (by decide) rfl
      · exact cuts_delegation hdelegation _ _
      · exact cuts_name hcs hname
      · split
        · exact cuts_of_not_isNameStart (by decide) hcs hname
        · exact cuts_of_not_isNameStart (by decide) hcs hname

theorem cuts_step (c : Char) (cs : List Char) (modes : List Mode) :
    (step c (c :: cs) modes).Cuts (c :: cs) := by
  unfold step
  split
  · exact cuts_startStep _ modes
  · exact cuts_startStep _ modes
  · exact cuts_codeStep rfl modes
  · split_ifs with hopening hclosing
    · obtain rfl := beq_iff_eq.mp hopening
      exact cuts_sign (by decide) (by decide) _ _ _
    · obtain rfl := beq_iff_eq.mp hclosing
      exact cuts_sign (by decide) (by decide) _ _ _
    · exact cuts_codeStep rfl modes
  · exact Quotation.cuts_quotedStep _ _ modes
  · split_ifs
    · exact Quotation.cuts_freshStep _ _ _ modes
    · exact Quotation.cuts_labelledStep _ _ _ modes
  · exact Quotation.cuts_simpleStep rfl modes
  · exact Quotation.cuts_simpleStep rfl modes

end Lexer

/-- A token stands in a text at its range. It is a word if it is a name, and its leaf declares
nothing and is no remark unless the token is one. -/
structure Token.Spelled (source : String) (t : Token) : Prop where
  cut_eq : t.span.cut? source = some t.text
  name : t.shape = .name → t.text ≠ "" ∧ ∀ c ∈ t.text.toList, isNameChar c = true
  kind : t.kind ∉ declaringKinds
  solid : t.isExtra = false → t.kind ∉ remarkKinds

/-- Some tokens stand in a text one behind another, from a byte on. -/
def Follow (source : String) : Nat → List Token → Prop
  | _, [] => True
  | pos, t :: ts => pos ≤ t.span.start ∧ t.Spelled source ∧ Follow source t.span.stop ts

theorem Follow.mono (h : Follow source b ts) (hle : a ≤ b) : Follow source a ts := by
  cases ts with
  | nil => trivial
  | cons t ts => exact ⟨Nat.le_trans hle h.1, h.2⟩

theorem Token.spelled {shape : Shape} {cs : List Char} {span : Span}
    (hcut : span.cut? source = some (.ofList cs))
    (hname : shape = .name → cs ≠ [] ∧ ∀ c ∈ cs, isNameChar c = true)
    (hspelled : shape.isSpelled = true → ∀ c ∈ cs.head?, c ∉ kindLetters) :
    (Token.mk shape (.ofList cs) span).Spelled source := by
  have htext : shape.isSpelled = true → String.ofList cs ∉ declaringKinds ++ remarkKinds := by
    intro hshape hmem
    have hfirst : ∀ kind ∈ declaringKinds ++ remarkKinds,
        kind.toList.head?.any kindLetters.contains = true := by decide
    have hletter := hfirst _ hmem
    rw [String.toList_ofList] at hletter
    obtain ⟨c, hc, hletter⟩ := (Option.any_eq_true _ _).mp hletter
    exact hspelled hshape c hc (List.contains_iff_mem.mp hletter)
  rw [List.mem_append, not_or] at htext
  refine ⟨hcut, fun h => by simpa using hname h, ?_, fun hextra => ?_⟩
  · cases shape with
    | delegation | quoteOpen | symbol => exact (htext rfl).1
    | _ => simp [kind, declaringKinds]
  · cases shape with
    | comment | interlude => cases hextra
    | delegation | quoteOpen | symbol => exact (htext rfl).2
    | _ => simp [kind, remarkKinds]

theorem Lexer.follow_run (hsource : source.toList = front ++ cs) :
    Follow source (String.ofList front).utf8ByteSize
      (run fuel modes (String.ofList front).utf8ByteSize cs) := by
  induction fuel generalizing front cs modes with
  | zero => trivial
  | succ fuel ih =>
    cases cs with
    | nil =>
      rw [run]
      split
      · trivial
      · have hend : Span.cut? ⟨(String.ofList front).utf8ByteSize,
            (String.ofList front).utf8ByteSize⟩ source = some (.ofList []) := by
          refine Span.cut?_eq_some_iff.mpr ⟨.ofList front, "", ?_, rfl, rfl⟩
          rw [← String.toList_inj, hsource]
          simp
        exact ⟨Nat.le_refl _, Token.spelled hend nofun nofun, trivial⟩
    | cons c cs =>
      obtain ⟨hsplit, hname, hspelled⟩ := cuts_step c cs modes
      have hrest : source.toList = (front ++ (step c (c :: cs) modes).lexeme) ++
          (step c (c :: cs) modes).rest := by
        rw [List.append_assoc, hsplit, hsource]
      have hstop : (String.ofList front).utf8ByteSize +
            (String.ofList (step c (c :: cs) modes).lexeme).utf8ByteSize =
          (String.ofList (front ++ (step c (c :: cs) modes).lexeme)).utf8ByteSize := by
        rw [String.ofList_append, String.utf8ByteSize_append]
      simp only [run, hstop]
      generalize step c (c :: cs) modes = s at hrest hstop hname hspelled
      split
      · exact (ih hrest).mono (by omega)
      · rename_i shape hshape
        refine ⟨Nat.le_refl _, Token.spelled ?_ (fun he => hname (he ▸ hshape))
          (hspelled shape hshape), ih hrest⟩
        refine Span.cut?_eq_some_iff.mpr ⟨.ofList front, .ofList s.rest, ?_, rfl, hstop⟩
        rw [← String.toList_inj, hrest]
        simp

/-- The tokens of a text stand in it one behind another. -/
theorem follow_tokenize (source : String) : Follow source 0 (tokenize source) :=
  Lexer.follow_run (List.nil_append _).symm

end Scaffold.Php
