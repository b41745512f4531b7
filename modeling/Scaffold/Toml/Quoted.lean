import Scaffold.Toml.Scalar

namespace Scaffold.Toml

/-- Whether a character may stand in a text or a comment; line ends are not meant. -/
def isPlain (c : Char) : Bool :=
  c == '\t' || (' ' ≤ c && c != '\x7f')

def isSpace (c : Char) : Bool :=
  c == ' ' || c == '\t'

/-- What follows a line end, if there is one. -/
def newline? : List Char → Option (List Char)
  | '\n' :: rest => some rest
  | '\r' :: '\n' :: rest => some rest
  | _ => none

def charOfNumber? (n : Nat) : Option Char :=
  if n.isValidChar then some (Char.ofNat n) else none

/-- The character with a number of so many digits in base sixteen, and what follows. -/
def numberedChar? (width : Nat) (cs : List Char) : Option (Char × List Char) := do
  let ds := cs.take width
  if ds.length != width then failure
  let c ← charOfNumber? (← ofDigits? 16 ds)
  return (c, cs.drop width)

/-- The character that an escape stands for, given what follows the backslash. -/
def escape? : List Char → Option (Char × List Char)
  | 'b' :: rest => some ('\x08', rest)
  | 't' :: rest => some ('\t', rest)
  | 'n' :: rest => some ('\n', rest)
  | 'f' :: rest => some ('\x0c', rest)
  | 'r' :: rest => some ('\r', rest)
  | '"' :: rest => some ('"', rest)
  | '\\' :: rest => some ('\\', rest)
  | 'u' :: rest => numberedChar? 4 rest
  | 'U' :: rest => numberedChar? 8 rest
  | _ => none

/-- A text between single quotes. -/
def literalText? : List Char → Option (List Char × List Char)
  | [] => none
  | c :: cs =>
    if c == '\'' then some ([], cs)
    else if isPlain c then (literalText? cs).map fun (s, rest) => (c :: s, rest)
    else none

/-- A text between double quotes. No text is longer than what holds it, which bounds the steps. -/
def basicTextTo : Nat → List Char → Option (List Char × List Char)
  | 0, _ => none
  | _, [] => none
  | steps + 1, c :: cs =>
    if c == '"' then some ([], cs)
    else if c == '\\' then do
      let (e, rest) ← escape? cs
      let (s, rest) ← basicTextTo steps rest
      return (e :: s, rest)
    else if isPlain c then (basicTextTo steps cs).map fun (s, rest) => (c :: s, rest)
    else none

def basicText? (cs : List Char) : Option (List Char × List Char) :=
  basicTextTo (cs.length + 1) cs

def skipBlankLines : List Char → List Char
  | '\r' :: '\n' :: cs => skipBlankLines cs
  | c :: cs => if isSpace c || c == '\n' then skipBlankLines cs else c :: cs
  | [] => []

/-- What follows a backslash at the end of a line: all blanks and line ends are skipped. -/
def joinedLine? (cs : List Char) : Option (List Char) :=
  (newline? (cs.dropWhile isSpace)).map skipBlankLines

/-- Quotes in a text that three of them end: up to two belong to the text, and so do up to two more
before the three that end it. Gives the quotes of the text and whether it ends. -/
def closingQuotes (count : Nat) : Option (Nat × Bool) :=
  if count ≤ 2 then some (count, false)
  else if count ≤ 5 then some (count - 3, true)
  else none

/-- A text over several lines between the given quotes; escapes count if `escapes` says so. -/
def longTextTo (quote : Char) (escapes : Bool) : Nat → List Char → Option (List Char × List Char)
  | 0, _ => none
  | _, [] => none
  | steps + 1, c :: cs =>
    if c == quote then do
      let run := (c :: cs).takeWhile (· == quote)
      let rest := (c :: cs).dropWhile (· == quote)
      let (kept, done) ← closingQuotes run.length
      let (s, rest) ← if done then some ([], rest) else longTextTo quote escapes steps rest
      return (List.replicate kept quote ++ s, rest)
    else if escapes && c == '\\' then
      match joinedLine? cs with
      | some rest => longTextTo quote escapes steps rest
      | none => do
        let (e, rest) ← escape? cs
        let (s, rest) ← longTextTo quote escapes steps rest
        return (e :: s, rest)
    else match newline? (c :: cs) with
      | some rest => (longTextTo quote escapes steps rest).map fun (s, rest) => ('\n' :: s, rest)
      | none =>
        if isPlain c then
          (longTextTo quote escapes steps cs).map fun (s, rest) => (c :: s, rest)
        else none

/-- A text over several lines. A line end right behind the opening quotes does not count. -/
def longText? (quote : Char) (escapes : Bool) (cs : List Char) :
    Option (List Char × List Char) :=
  let cs := (newline? cs).getD cs
  longTextTo quote escapes (cs.length + 1) cs

/-- A quoted text of any kind, opening quotes included. -/
def quotedText? : List Char → Option (List Char × List Char)
  | '"' :: '"' :: '"' :: rest => longText? '"' true rest
  | '\'' :: '\'' :: '\'' :: rest => longText? '\'' false rest
  | '"' :: rest => basicText? rest
  | '\'' :: rest => literalText? rest
  | _ => none

end Scaffold.Toml
