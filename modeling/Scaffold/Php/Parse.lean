import Scaffold.Php.Grammar
import Scaffold.Php.Lexer
import Scaffold.Source.Position
import Scaffold.Text.Blank

namespace Scaffold.Php

inductive Complaint where
  | missing (token : String)
  | unexpected (snippet : String)
  deriving DecidableEq, Repr

structure Fault where
  offset : Nat
  complaint : Complaint
  deriving DecidableEq, Repr

def Complaint.message : Complaint → String
  | .missing token => "missing \x60" ++ token ++ "\x60"
  | .unexpected snippet => "unexpected \x60" ++ snippet ++ "\x60"

/-- The first line of a text, without the line end. -/
def firstLine (cs : List Char) : List Char :=
  let line := cs.takeWhile (· != '\n')
  if line.length < cs.length && line.getLast? == some '\r' then line.dropLast else line

/-- What a complaint quotes of a text: the start of its first line. -/
def snippet (text : String) : String :=
  .ofList (Text.trimChars ((firstLine text.toList).take 40))

/-- The complaint about a statement that cannot be read. A remark that is cut off is to blame
itself, a closing bracket without an opening one stands alone, and else the text from the start of
the statement on is unexpected. -/
def refusal (source : String) (tokens : List Token) (statement : Token) : Fault :=
  match tokens.getLast? with
  | some last =>
    if last.shape == .openComment then ⟨last.span.start, .unexpected (snippet last.text)⟩
    else if ["\x7d", ")", "]"].contains statement.text then
      ⟨statement.span.start, .unexpected statement.text⟩
    else
      ⟨statement.span.start,
        .unexpected (snippet (Span.cut ⟨statement.span.start, source.utf8ByteSize⟩ source))⟩
  | none => ⟨0, .unexpected ""⟩

/-- What ends a string between quotes. -/
def delimiters : List String := ["\"", "\x60"]

/-- Reads statements up to the end of the text. -/
def readStatements (source : String) (depth : Nat) : Nat → Reading → Except Fault Reading
  | 0, r => .ok r
  | fuel + 1, r =>
    let r := r.skipExtras
    match r.tokens with
    | [] => .ok r
    | t :: ts =>
      match Pattern.read Grammar.rules depth (.rule .statement) r with
      | .read r' => readStatements source depth fuel r'
      | .refused => .error (refusal source (t :: ts) t)
      | .missing text offset =>
        -- Behind a cut-off string or remark, no closer but a quote is known to be missing.
        if ts.getLast?.any Token.isOpen && !delimiters.contains text then
          .error (refusal source (t :: ts) t)
        else .error ⟨offset, .missing text⟩

/-- A bound on how deep the patterns nest while a text of so many tokens is read. -/
def nesting (tokens : Nat) : Nat := 200 * (tokens + 1)

/-- The concrete tree of a PHP text, whose root covers all of it. -/
def parse (source : String) : Except Fault Concrete := do
  let tokens := tokenize source
  let depth := nesting tokens.length
  let opening :=
    Pattern.seqs [Pattern.opt (Pattern.shaped .html), Pattern.opt (Pattern.shaped .openTag)]
  let r ← match Pattern.read Grammar.rules depth opening ⟨tokens, [], 0, false⟩ with
    | .read r => readStatements source depth (tokens.length + 1) r
    | _ => .error ⟨0, .unexpected (snippet source)⟩
  return .node "program" true none ⟨0, source.utf8ByteSize⟩ r.built.reverse

end Scaffold.Php
