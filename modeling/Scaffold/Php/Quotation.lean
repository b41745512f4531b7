import Scaffold.Php.Lexeme
import Scaffold.Php.Token

namespace Scaffold.Php

inductive Mode where
  /-- Before the first code island. -/
  | start
  /-- In code that no string surrounds. -/
  | code
  /-- In code inside a string, up to the matching brace. -/
  | embedded
  /-- In a string that ends at a delimiter. -/
  | quoted (delimiter : Char)
  /-- In a string that ends at a label; a literal one embeds nothing, and a fresh one has not
  reached its first line yet. -/
  | labelled (label : List Char) (literal fresh : Bool)
  /-- In the subscript of a variable inside a string. -/
  | subscript
  /-- In the member access of a variable inside a string. -/
  | member
  deriving DecidableEq, Repr

/-- One step of the reader: a lexeme, blank when it has no shape, and what is left. -/
structure Step where
  shape : Option Shape
  lexeme : List Char
  rest : List Char
  modes : List Mode

namespace Step

/-- A step that takes the first `n` characters. -/
def take (shape : Shape) (n : Nat) (cs : List Char) (modes : List Mode) : Step :=
  ⟨some shape, cs.take n, cs.drop n, modes⟩

/-- A step over the first `n` characters, which are blank. -/
def skip (n : Nat) (cs : List Char) (modes : List Mode) : Step :=
  ⟨none, cs.take n, cs.drop n, modes⟩

/-- A step that takes all that is left as a token cut off by the end of the text. -/
def cutOff (shape : Shape) (cs : List Char) (modes : List Mode) : Step :=
  ⟨some shape, cs, [], modes⟩

end Step

namespace Quotation

open Lexeme Step

/-- Whether an embedded expression or variable starts here. -/
def startsEmbedding : List Char → Bool
  | '{' :: '$' :: _ => true
  | '$' :: c :: _ => c == '{' || c.isAlpha || c == '_'
  | _ => false

/-- The mode behind a variable: an opening bracket always starts a subscript, and an arrow with a
name character behind it a member access. -/
def modesBehind (cs : List Char) (modes : List Mode) : List Mode :=
  match cs with
  | '[' :: _ => .subscript :: modes
  | '-' :: '>' :: c :: _ => if isLabelChar c then .member :: modes else modes
  | _ => modes

def embeddingStep (cs : List Char) (modes : List Mode) : Step :=
  match cs with
  | '{' :: _ => take .symbol 1 cs (.embedded :: modes)
  | _ :: '{' :: _ => take .symbol 2 cs (.embedded :: modes)
  | _ =>
    let n := 1 + nameLength (cs.drop 1)
    take .variable n cs (modesBehind (cs.drop n) modes)

/-- The number of characters before the delimiter of a string or before an embedding, if there is
one; a backslash hides the next character. -/
def quotedLength? (delimiter : Char) : List Char → Option Nat
  | [] => none
  | ['\\'] => none
  | c :: d :: cs =>
    if c == delimiter || startsEmbedding (c :: d :: cs) then some 0
    else if c == '\\' then (quotedLength? delimiter cs).map (· + 2)
    else (quotedLength? delimiter (d :: cs)).map (· + 1)
  | [c] => if c == delimiter then some 0 else none

def quotedStep (delimiter : Char) (cs : List Char) (modes : List Mode) : Step :=
  if cs.head? == some delimiter then take .quoteClose 1 cs (modes.drop 1)
  else if startsEmbedding cs then embeddingStep cs modes
  else match quotedLength? delimiter cs with
    | some n => take .quoteText n cs modes
    | none => cutOff .openString cs modes

/-- The length of an escape sequence of a labelled string, if one stands here. A double backslash
is plain text there. -/
def escapeLength : List Char → Nat
  | '\\' :: c :: r =>
    if "nrtvef$\"".toList.contains c then 2
    else if isOctalDigit c then 1 + min 3 ((c :: r).takeWhile isOctalDigit).length
    else if c == 'x' && r.head?.any isHexDigit then 2 + min 2 (r.takeWhile isHexDigit).length
    else if c == 'u' then 2 + bracedLength r
    else 0
  | _ => 0
where
  bracedLength : List Char → Nat
    | '{' :: r =>
      let n := (r.takeWhile isHexDigit).length
      if 0 < n && (r.drop n).head? == some '}' then n + 2 else 0
    | _ => 0

/-- The number of characters of a labelled string before the end of the line, an embedding or an
escape sequence, if there is one. -/
def lineTextLength? (literal : Bool) : List Char → Option Nat
  | [] => none
  | c :: cs =>
    if isLineEnd c then some 0
    else if literal then (lineTextLength? literal cs).map (· + 1)
    else if startsEmbedding (c :: cs) || 0 < escapeLength (c :: cs) then some 0
    else match c, cs with
      | '\\', d :: r =>
        if d == '{' || d == '\\' then (lineTextLength? literal r).map (· + 2)
        else (lineTextLength? literal (d :: r)).map (· + 1)
      | _, cs => (lineTextLength? literal cs).map (· + 1)

/-- Whether the label stands here and what follows lets the string end: a line end, a semicolon, a
comma or a closing parenthesis. -/
def endsAtLabel (label cs : List Char) : Bool :=
  let rest := cs.drop label.length
  label.isPrefixOf cs && rest.head?.any (fun c => isSpace c || ";,)".toList.contains c) &&
    (rest.dropWhile fun c => isSpace c && !isLineEnd c).head?.any
      (fun c => isLineEnd c || ";,)".toList.contains c)

def isLabel (label cs : List Char) : Bool :=
  cs.takeWhile isLabelChar == label

/-- The step that ends a labelled string behind a gap. A string inside another labelled one takes
the other's end along. -/
def closeStep (label : List Char) (gap : Nat) (cs : List Char) (modes : List Mode) : Step :=
  let outer := modes.drop 1
  if outer.any (fun m => m matches .labelled ..) then cutOff .openString cs outer
  else take .quoteClose (gap + label.length) cs outer

/-- A step between the label that opens a string and its first line, where remarks may stand. -/
def freshStep (label : List Char) (literal : Bool) (cs : List Char) (modes : List Mode) : Step :=
  let gap := cs.takeWhile isSpace
  if isLabel label (cs.drop gap.length) then closeStep label gap.length cs modes
  else match cs with
    | '\r' :: '\n' :: _ => skip 2 cs (.labelled label literal false :: modes.drop 1)
    | '/' :: '/' :: r => take .comment (2 + lineLength r) cs modes
    | '#' :: r => take .comment (1 + hashLength r) cs modes
    | '/' :: '*' :: r =>
      match blockLength? r with
      | some n => take .comment (2 + n) cs modes
      | none => cutOff .openComment cs modes
    | c :: _ =>
      if isLineEnd c then skip 1 cs (.labelled label literal false :: modes.drop 1)
      else if isCodeSpace c then skip 1 cs modes
      else cutOff .openString cs modes
    | [] => cutOff .openString cs modes

/-- A step inside a labelled string. The label ends the string only behind a line end. -/
def labelledStep (label : List Char) (literal : Bool) (cs : List Char) (modes : List Mode) : Step :=
  let gap := cs.takeWhile isSpace
  let line := cs.drop gap.length
  let close :=
    -- At the end of the text the label closes the string too.
    if gap.any isLineEnd && isLabel label line then closeStep label gap.length cs modes
    else cutOff .openString cs modes
  if endsAtLabel label line then close
  else match lineTextLength? literal line with
    | none => close
    | some n =>
      if 0 < gap.length + n then take .quoteText (gap.length + n) cs modes
      else if startsEmbedding cs then embeddingStep cs modes
      else take .quoteText (max 1 (escapeLength cs)) cs modes

/-- What opens a labelled string: its label, whether it is taken literally, and its length. -/
def opening? (cs : List Char) : Option (List Char × Bool × Nat) :=
  match cs with
  | '<' :: '<' :: '<' :: r =>
    let inner := r.dropWhile isSpace
    let quote := inner.head?.filter fun c => c == '"' || c == '\''
    let inner := if quote.isSome then (inner.drop 1).dropWhile isSpace else inner
    let label := inner.takeWhile isLabelChar
    let inner := inner.drop label.length
    let rest := if quote.isSome then inner.drop 1 else inner
    if !label.isEmpty && (quote.isNone || inner.head? == quote) then
      some (label, quote == some '\'', cs.length - rest.length)
    else none
  | _ => none

/-- A step inside the subscript or member access of a variable in a string. -/
def simpleStep (c : Char) (cs : List Char) (modes : List Mode) : Step :=
  let behind := if modes.head? == some .member then modes.drop 1 else modes
  if isNameStart c then take .name (nameLength cs) cs behind
  else if c.isDigit then take .number (max 1 (integerLength cs)) cs behind
  else if c == ']' then take .symbol 1 cs (modes.drop 1)
  else if isCodeSpace c then skip 1 cs modes
  else match cs with
    | '$' :: r => take .variable (1 + nameLength r) cs modes
    | _ => take .symbol (symbolLength cs) cs modes

end Quotation

end Scaffold.Php
