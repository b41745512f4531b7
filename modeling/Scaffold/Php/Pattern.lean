import Scaffold.Php.Lexeme
import Scaffold.Php.Token

namespace Scaffold.Php

/-- What to read, over rules named by `ρ`. -/
inductive Pattern (ρ : Type) where
  /-- Reads nothing. -/
  | empty
  /-- Reads a token that passes the test, as a leaf of the given kind, or of its own kind. -/
  | token (kind : Option String) (named : Bool) (test : Token → Bool)
  /-- Reads a closing token that must be there. -/
  | closer (text : String)
  /-- Reads the end of a string between quotes. -/
  | unquote (delimiter : String)
  /-- Reads the end of a statement: a semicolon, or nothing where the code island ends. -/
  | terminator
  /-- Reads nothing, where the statement does not end with the code island. -/
  | goesOn
  /-- Reads nothing, where the next token follows the last one without a gap. -/
  | glued
  | rule (r : ρ)
  | seq (p q : Pattern ρ)
  /-- Reads the second only where the first cannot be read. -/
  | alt (p q : Pattern ρ)
  | many (p : Pattern ρ)
  /-- Reads nothing, where `p` can be read. -/
  | ahead (p : Pattern ρ)
  /-- Reads nothing, where `p` cannot be read. -/
  | absent (p : Pattern ρ)
  /-- Reads nothing, where `p` can be read behind the brackets that open here. -/
  | behind (p : Pattern ρ)
  /-- Reads `p` inside brackets, where no statement ends, or outside them. -/
  | within (nested : Bool) (p : Pattern ρ)
  | node (kind : String) (p : Pattern ρ)
  /-- Gives the last node that is read a role. -/
  | field (label : String) (p : Pattern ρ)

/-- How far the reading has come: the tokens left, the trees of the open node in reverse order,
the end of the last token or remark, and whether brackets are open inside the statement. -/
structure Reading where
  tokens : List Token
  built : List Concrete
  stop : Nat
  nested : Bool

/-- What becomes of reading a pattern. -/
inductive Outcome where
  | read (r : Reading)
  | refused
  /-- A closing token is missing at a byte offset. -/
  | missing (text : String) (offset : Nat)

namespace Reading

def shift (r : Reading) (t : Token) (rest : List Token) (leaf : Concrete) : Reading :=
  { r with tokens := rest, built := leaf :: r.built, stop := t.span.stop }

/-- Takes the leading remarks and interludes. -/
def skipExtras (r : Reading) : Reading :=
  let extras := r.tokens.takeWhile Token.isExtra
  { r with
    tokens := r.tokens.dropWhile Token.isExtra
    built := (extras.map Token.leaf).reverse ++ r.built
    stop := extras.foldl (fun _ t => t.span.stop) r.stop }

end Reading

/-- Whether the code island ends here, at most remarks up to the ends of their lines before that. -/
def endsIsland : List Token → Bool
  | [] => false
  | t :: ts =>
    t.shape == .interlude ||
      (t.isLineRemark &&
        ts.head?.any (fun u =>
          t.span.stop < u.span.start || t.text.toList.getLast? == some '\n') &&
        endsIsland ts)

/-- The tokens behind the brackets that open here. The number counts the brackets that are open. -/
def behindBrackets : Nat → List Token → Option (List Token)
  | _, [] => none
  | depth, t :: ts =>
    if t.shape == .symbol then
      if ["[", "(", "\x7b", "$\x7b", "#["].contains t.text then behindBrackets (depth + 1) ts
      else if ["]", ")", "\x7d"].contains t.text then
        if depth ≤ 1 then some ts else behindBrackets (depth - 1) ts
      else behindBrackets depth ts
    else behindBrackets depth ts

/-- The node over some trees, behind those at the front that may not start a node. The trees are
in reverse order, before and after. -/
def wrap (kind : String) (inner : List Concrete) (outer : List Concrete) : List Concrete :=
  let forest := inner.reverse
  let lead := forest.takeWhile Concrete.isExtra
  match forest.dropWhile Concrete.isExtra with
  | [] => lead.reverse ++ outer
  | first :: more =>
    let last := more.getLastD first
    .node kind true none ⟨first.span.start, last.span.stop⟩ (first :: more) ::
      (lead.reverse ++ outer)

/-- Gives the last of some trees in reverse order a role. -/
def labelLast (label : String) : List Concrete → List Concrete
  | [] => []
  | c :: cs => c.withLabel label :: cs

namespace Pattern

variable {ρ : Type}

def readToken (kind : Option String) (named : Bool) (test : Token → Bool) (r : Reading) : Outcome :=
  let r := r.skipExtras
  match r.tokens with
  | [] => .refused
  | t :: ts =>
    if test t then .read (r.shift t ts (.node (kind.getD t.kind) named none t.span []))
    else .refused

def readCloser (text : String) (r : Reading) : Outcome :=
  let r := r.skipExtras
  match r.tokens with
  | [] => .missing text r.stop
  | t :: ts =>
    if t.shape == .symbol && t.text == text then .read (r.shift t ts t.leaf)
    else .missing text r.stop

/-- Whether a cut-off string would be complete with its delimiter put in: what follows then goes on
with the code around the string. -/
def resumes (t : Token) : Bool :=
  t.shape == .openString && (t.text.toList.dropWhile Lexeme.isCodeSpace).head?.any
    fun c => c == ';' || c == '.'

def readUnquote (delimiter : String) (r : Reading) : Outcome :=
  match r.tokens with
  | [] => .refused
  | t :: ts =>
    if t.shape == .quoteClose then .read (r.shift t ts (.node delimiter false none t.span []))
    else if resumes t then .missing delimiter r.stop
    else .refused

def readTerminator (tokens : List Token) (r : Reading) : Outcome :=
  if endsIsland tokens then .read r
  else match tokens with
    | t :: ts =>
      if t.shape == .comment then readTerminator ts (r.shift t ts t.leaf) else readCloser ";" r
    | [] => .missing ";" r.stop

/-- Reads a pattern. The first number bounds how deep patterns may nest. -/
def read (rules : ρ → Pattern ρ) : Nat → Pattern ρ → Reading → Outcome
  | 0, _, _ => .refused
  | fuel + 1, p, r =>
    match p with
    | .empty => .read r
    | .token kind named test => readToken kind named test r
    | .closer text => readCloser text r
    | .unquote delimiter => readUnquote delimiter r
    | .terminator => readTerminator r.tokens r
    | .goesOn =>
      if r.nested || !endsIsland (r.tokens.dropWhile (·.shape == .comment)) then .read r
      else .refused
    | .glued => if r.tokens.head?.any (·.span.start == r.stop) then .read r else .refused
    | .rule name => read rules fuel (rules name) r
    | .seq p q =>
      match read rules fuel p r with
      | .read r' => read rules fuel q r'
      | failure => failure
    | .alt p q =>
      match read rules fuel p r with
      -- Only a refusal leads to the second pattern; a missing closer is final.
      | .refused => read rules fuel q r
      | decided => decided
    | .many p =>
      match read rules fuel p r with
      -- A round that took nothing would go on for ever.
      | .read r' => if r.stop < r'.stop then read rules fuel (.many p) r' else .read r'
      | .refused => .read r
      | failure => failure
    | .ahead p =>
      match read rules fuel p r with
      | .read _ => .read r
      | failure => failure
    | .absent p =>
      match read rules fuel p r with
      | .read _ => .refused
      | _ => .read r
    | .behind p =>
      match behindBrackets 0 r.skipExtras.tokens with
      | some rest =>
        match read rules fuel p { r with tokens := rest, built := [] } with
        | .read _ => .read r
        | _ => .refused
      | none => .refused
    | .within nested p =>
      match read rules fuel p { r with nested := nested } with
      | .read r' => .read { r' with nested := r.nested }
      | failure => failure
    | .node kind p =>
      match read rules fuel p { r with built := [] } with
      | .read r' => .read { r' with built := wrap kind r'.built r.built }
      | failure => failure
    | .field label p =>
      match read rules fuel p { r with built := [] } with
      | .read r' => .read { r' with built := labelLast label r'.built ++ r.built }
      | failure => failure

def seqs : List (Pattern ρ) → Pattern ρ
  | [] => .empty
  | [p] => p
  | p :: ps => .seq p (seqs ps)

def alts : List (Pattern ρ) → Pattern ρ
  | [] => .absent .empty
  | [p] => p
  | p :: ps => .alt p (alts ps)

def opt (p : Pattern ρ) : Pattern ρ := .alt p .empty

def some1 (p : Pattern ρ) : Pattern ρ := .seq p (.many p)

def sepBy1 (p s : Pattern ρ) : Pattern ρ := .seq p (.many (.seq s p))

/-- Punctuation with one of the given texts. -/
def syms (texts : List String) : Pattern ρ :=
  .token none false fun t => t.shape == .symbol && texts.contains t.text

def sym (text : String) : Pattern ρ := syms [text]

/-- Punctuation that goes on with the statement. -/
def operator (texts : List String) : Pattern ρ := .seq .goesOn (syms texts)

/-- One of some words, capitals and small letters being the same. -/
def words (list : List String) : Pattern ρ := .token none false fun t => t.isWordOf list

/-- The keyword with the given spelling in small letters. -/
def keyword (word : String) : Pattern ρ := .token (some word) false fun t => t.isWordOf [word]

/-- One of some words, spelled exactly so. -/
def spelled (list : List String) : Pattern ρ :=
  .token none false fun t => t.shape == .name && list.contains t.text

/-- Any word but some. -/
def wordUnless (list : List String) : Pattern ρ :=
  .token none true fun t => t.shape == .name && !t.isWordOf list

/-- A token of a shape. -/
def shaped (shape : Shape) : Pattern ρ := .token none true fun t => t.shape == shape

/-- The pattern in brackets, the closing one of which must be there. -/
def bracketed (opening : Pattern ρ) (p : Pattern ρ) (closing : String) : Pattern ρ :=
  seqs [opening, .within true p, .closer closing]

end Pattern

end Scaffold.Php
