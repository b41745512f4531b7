import Scaffold.Source.Span

namespace Scaffold

/-- A line and a column, both counted from one. -/
structure Position where
  line : Nat
  column : Nat
  deriving DecidableEq, Repr

namespace Position

/-- The text before an offset; an offset inside a character stands for the end of the text. -/
def textBefore (source : String) (offset : Nat) : String :=
  (Span.cut? ⟨0, min offset source.utf8ByteSize⟩ source).getD source

/-- The position reached after reading some characters. -/
def after (cs : List Char) : Position where
  line := cs.count '\n' + 1
  column := (cs.reverse.takeWhile (· != '\n')).length + 1

/-- The position of a byte offset; offsets past the end give the position of the end. -/
def ofOffset (source : String) (offset : Nat) : Position :=
  after (textBefore source offset).toList

end Position

end Scaffold
