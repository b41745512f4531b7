import Scaffold.Php.Lexeme
import Scaffold.Php.Quotation
import Scaffold.Php.Token

namespace Scaffold.Php

namespace Lexer

open Lexeme Step

/-- A step before the first code island. -/
def startStep (cs : List Char) (modes : List Mode) : Step :=
  if cs.head?.any isSpace then skip (cs.takeWhile isSpace).length cs modes
  else match tagLength? cs with
    | some n => take .openTag n cs (.code :: modes.drop 1)
    | none => take .html (visibleText (beforeTag cs)).length cs modes

/-- A step in code, apart from braces. -/
def codeStep (c : Char) (cs : List Char) (modes : List Mode) : Step :=
  if isCodeSpace c then skip (cs.takeWhile isCodeSpace).length cs modes
  else match cs with
    | '?' :: '>' :: _ => take .interlude (interludeLength cs) cs modes
    | '/' :: '/' :: r => take .comment (2 + lineLength r) cs modes
    | '/' :: '*' :: r =>
      match blockLength? r with
      | some n => take .comment (2 + n) cs modes
      | none => cutOff .openComment cs modes
    -- A number sign before a bracket opens an attribute.
    | '#' :: r =>
      if r.head? == some '[' then take .symbol 2 cs modes
      else take .comment (1 + hashLength r) cs modes
    | '\'' :: r => plain 1 r
    | 'b' :: '\'' :: r => plain 2 r
    | 'B' :: '\'' :: r => plain 2 r
    | '"' :: _ => take .quoteOpen 1 cs (.quoted '"' :: modes)
    | 'b' :: '"' :: _ => take .quoteOpen 2 cs (.quoted '"' :: modes)
    | 'B' :: '"' :: _ => take .quoteOpen 2 cs (.quoted '"' :: modes)
    | '\x60' :: _ => take .quoteOpen 1 cs (.quoted '\x60' :: modes)
    | '$' :: r => if startsName r then take .variable (1 + nameLength r) cs modes
        else take .symbol 1 cs modes
    | _ =>
      if c.isDigit then take .number (numberLength cs) cs modes
      else if startsFolded delegation cs then take .delegation delegation.length cs modes
      else if isNameStart c then take .name (nameLength cs) cs modes
      else match Quotation.opening? cs with
        | some (label, literal, n) => take .quoteOpen n cs (.labelled label literal true :: modes)
        | none => take .symbol (symbolLength cs) cs modes
where
  plain (n : Nat) (r : List Char) : Step :=
    match plainLength? r with
    | some k => take .literal (n + k) cs modes
    | none => cutOff .openString cs modes

/-- One step of the reader at a character `c` that starts the remaining text `cs`. -/
def step (c : Char) (cs : List Char) (modes : List Mode) : Step :=
  match modes.head? with
  | none | some .start => startStep cs modes
  | some .code => codeStep c cs modes
  | some .embedded =>
    if c == '{' then take .symbol 1 cs (.embedded :: modes)
    else if c == '}' then take .symbol 1 cs (modes.drop 1)
    else codeStep c cs modes
  | some (.quoted d) => Quotation.quotedStep d cs modes
  | some (.labelled label literal fresh) =>
    if fresh then Quotation.freshStep label literal cs modes
    else Quotation.labelledStep label literal cs modes
  | some .subscript | some .member => Quotation.simpleStep c cs modes

/-- Whether the end of the text may come in these modes. -/
def mayEnd (modes : List Mode) : Bool :=
  match modes.head? with
  | none | some .start | some .code => true
  | _ => false

/-- The tokens of the remaining text from byte `pos` on. -/
def run : Nat → List Mode → Nat → List Char → List Token
  | 0, _, _, _ => []
  -- A text that ends inside a string leaves an empty open token, which no rule reads.
  | _ + 1, modes, pos, [] => if mayEnd modes then [] else [⟨.openString, "", ⟨pos, pos⟩⟩]
  | fuel + 1, modes, pos, c :: cs =>
    let s := step c (c :: cs) modes
    let text := String.ofList s.lexeme
    let stop := pos + text.utf8ByteSize
    match s.shape with
    | none => run fuel s.modes stop s.rest
    | some shape => ⟨shape, text, ⟨pos, stop⟩⟩ :: run fuel s.modes stop s.rest

end Lexer

def tokenize (source : String) : List Token :=
  let cs := source.toList
  Lexer.run (cs.length + 1) [.start] 0 cs

end Scaffold.Php
