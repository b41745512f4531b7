import Scaffold.Text.Blank

namespace Scaffold.Table

/-- Columns are not made narrower than this. -/
def leastWidth : Nat := 6

def separator : List Char := [' ', ' ']

def ellipsis : Char := '…'

def missingCell : List Char := ['-']

/-- The width of all columns and of what stands between them. The widths count characters of texts
in memory, so that their sum cannot pass `2 ^ 64`. -/
def totalWidth (widths : List Nat) : Nat :=
  widths.foldl (· + ·) 0 + separator.length * (widths.length - 1)

/-- Takes one from the last entry that equals `width`. -/
def lowerLast (width : Nat) : List Nat → List Nat
  | [] => []
  | w :: ws =>
    if ws.contains width then w :: lowerLast width ws
    else if w == width then (w - 1) :: ws
    else w :: ws

/-- Takes one from the widest column, the last one of several, unless all columns are as narrow as
they may get. -/
def shrinkWidest (widths : List Nat) : List Nat :=
  let widest := widths.foldl max 0
  if leastWidth < widest then lowerLast widest widths else widths

/-- The widths with as many characters taken away as the table is too wide. -/
def shrinkTo (limit : Nat) (widths : List Nat) : List Nat :=
  Nat.repeat shrinkWidest (totalWidth widths - limit) widths

/-- The widths made to fit a limit, if there is one. As they count characters of texts in memory, a
sum of them, which natural numbers hold without a bound, cannot pass `2 ^ 64`. -/
def fitWidths (limit : Option Nat) (widths : List Nat) : List Nat :=
  match limit with
  | some limit => shrinkTo limit widths
  | none => widths

/-- The width that a column needs for its header and its cells. -/
def neededWidth (header : List Char) (cells : List (List Char)) : Nat :=
  (cells.map List.length).foldl max header.length

/-- The cells of a column, as far as the rows have one. -/
def column (rows : List (List (List Char))) (i : Nat) : List (List Char) :=
  rows.filterMap (·[i]?)

def neededWidths (headers : List (List Char)) (rows : List (List (List Char))) : List Nat :=
  headers.mapIdx fun i header => neededWidth header (column rows i)

/-- A text cut to a width, with a mark if something was lost. -/
def truncate (width : Nat) (cell : List Char) : List Char :=
  if cell.length ≤ width then cell else cell.take (width - 1) ++ [ellipsis]

/-- Whether a text is a number in ASCII digits, blanks around it not counting. -/
def isNumeric (cell : List Char) : Bool :=
  let digits := Text.trimChars cell
  !digits.isEmpty && digits.all Char.isDigit

/-- A text filled up with blanks behind it. -/
def padEnd (width : Nat) (cell : List Char) : List Char :=
  cell ++ List.replicate (width - cell.length) ' '

/-- A text filled up with blanks before it. -/
def padStart (width : Nat) (cell : List Char) : List Char :=
  List.replicate (width - cell.length) ' ' ++ cell

def headerCell (width : Nat) (header : List Char) : List Char :=
  padEnd width (truncate width header)

/-- A cell in its column: numbers stand at the right, all else at the left. -/
def bodyCell (width : Nat) (cell : List Char) : List Char :=
  let shown := truncate width cell
  if isNumeric shown then padStart width shown else padEnd width shown

def headerLine (widths : List Nat) (headers : List (List Char)) : List Char :=
  separator.intercalate (List.zipWith headerCell widths headers)

def rowLine (widths : List Nat) (row : List (List Char)) : List Char :=
  separator.intercalate (widths.mapIdx fun i width => bodyCell width (row[i]?.getD missingCell))

/-- The lines of a table whose columns have the given widths: headers, a divider, rows. -/
def linesAt (widths : List Nat) (headers : List (List Char)) (rows : List (List (List Char))) :
    List (List Char) :=
  let header := headerLine widths headers
  header :: List.replicate header.length '-' :: rows.map (rowLine widths)

def lines (limit : Option Nat) (headers : List (List Char)) (rows : List (List (List Char))) :
    List (List Char) :=
  linesAt (fitWidths limit (neededWidths headers rows)) headers rows

/-- The text of a table, without a line end behind the last line. -/
def render (limit : Option Nat) (headers : List String) (rows : List (List String)) : String :=
  .ofList (['\n'].intercalate
    (lines limit (headers.map String.toList) (rows.map (·.map String.toList))))

end Scaffold.Table
