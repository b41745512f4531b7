import Scaffold.Proofs.Tree.Printing

namespace Scaffold
set_option autoImplicit true

variable {t : SyntaxTree} {p : Printer}

namespace SyntaxTree

def lineEnd (t : SyntaxTree) : String :=
  let line := t.source.toList.takeWhile (· != '\n')
  if line.length < t.source.toList.length && line.getLast? == some '\r' then "\r\n" else "\n"

/-- The blanks and tabs at the start of the line of an offset. -/
def indentAt (t : SyntaxTree) (offset : Nat) : String :=
  let line := (((Span.mk 0 offset).cut t.source).toList.reverse.takeWhile (· != '\n')).reverse
  .ofList (line.takeWhile fun c => c == ' ' || c == '\t')

theorem Tiles.start_fits (h : t.Tiles a cs b) (hv : Span.Fits ⟨a, a⟩ t.source)
    (hc : c ∈ cs) (hs : (t.node c).span = some s) : Span.Fits ⟨a, s.start⟩ t.source := by
  induction cs generalizing a with
  | nil => cases hc
  | cons d cs ih =>
    obtain ⟨sd, hsd, hfd, _, hg, htail⟩ := h
    rcases List.mem_cons.mp hc with rfl | hc
    · obtain rfl := Option.some.inj (hs.symm.trans hsd)
      exact hg
    · exact (hg.join hfd).join (ih htail hfd.empty_stop hc)

end SyntaxTree

namespace Printer

theorem lineIndent_eq_some (h : Span.Fits ⟨offset, offset⟩ p.unedited.source) :
    p.lineIndent offset = some (p.unedited.indentAt offset) := by
  have hle : offset ≤ p.unedited.source.utf8ByteSize := h.stop_le
  have hfit : Span.Fits ⟨0, offset⟩ p.unedited.source :=
    ⟨Nat.zero_le _, String.Pos.Raw.isValid_zero, h.2.1⟩
  obtain ⟨text, ht⟩ := hfit.cut?_eq
  have hs : p.slice? ⟨0, min offset p.unedited.source.utf8ByteSize⟩ = some text := by
    rw [slice?, Nat.min_eq_left hle, ht]
  rw [SyntaxTree.indentAt, Span.cut, ht, lineIndent, hs]
  rfl

theorem onOwnLine_eq_some (hs : s.Fits p.unedited.source)
    (hb : Span.Fits ⟨start, s.start⟩ p.unedited.source) :
    p.onOwnLine start s =
      some ((((Span.mk start s.start).cut p.unedited.source)).toList.contains '\n') := by
  obtain ⟨gap, hg⟩ := hb.cut?_eq
  rw [onOwnLine, Span.cut, slice?, hg]
  split
  · rfl
  · rename_i hlt
    obtain rfl : start = s.start := Nat.le_antisymm hb.1 (Nat.le_of_not_lt hlt)
    rw [Span.cut?_empty hs.empty_start] at hg
    cases hg
    rfl

end Printer

end Scaffold
