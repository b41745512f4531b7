namespace Scaffold

/-- The bytes from `start` up to, but not including, `stop`. -/
structure Span where
  start : Nat
  stop : Nat
  deriving DecidableEq, Repr, Inhabited

namespace Span

def length (s : Span) : Nat := s.stop - s.start

def isEmpty (s : Span) : Bool := s.start == s.stop

/-- Whether both ends of a range are in order and on character boundaries of the text. -/
def Fits (s : Span) (source : String) : Prop :=
  s.start ≤ s.stop ∧ String.Pos.Raw.IsValid source ⟨s.start⟩ ∧
    String.Pos.Raw.IsValid source ⟨s.stop⟩

instance (s : Span) (source : String) : Decidable (s.Fits source) :=
  inferInstanceAs (Decidable (_ ∧ _ ∧ _))

/-- The text at a range, if the range fits. -/
def cut? (s : Span) (source : String) : Option String :=
  if h : s.Fits source then
    some (source.extract ⟨⟨s.start⟩, h.2.1⟩ ⟨⟨s.stop⟩, h.2.2⟩)
  else none

/-- The text at a range, empty if the range does not fit. -/
def cut (s : Span) (source : String) : String :=
  (s.cut? source).getD ""

end Span

end Scaffold
