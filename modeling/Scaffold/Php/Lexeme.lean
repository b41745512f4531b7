import Scaffold.Text.Blank

namespace Scaffold.Php

namespace Lexeme

/-- White space of the text around code and of strings that end at a label. -/
def isSpace (c : Char) : Bool :=
  c == ' ' || c == '\t' || c == '\n' || c == '\r' || c == '\x0b' || c == '\x0c'

def isLineEnd (c : Char) : Bool :=
  c == '\n' || c == '\r'

/-- White space of code. -/
def isCodeSpace (c : Char) : Bool :=
  isSpace c || c == '\u00a0' || c == '\u200b' || c == '\u2060' || c == '\ufeff'

/-- Whether a character may start a name: a letter, an underscore, or any character of the basic
plane outside ASCII that is no white space. -/
def isNameStart (c : Char) : Bool :=
  c.isAlpha || c == '_' || (0x80 ≤ c.toNat && c.toNat ≤ 0xffff && !isCodeSpace c)

def isNameChar (c : Char) : Bool :=
  isNameStart c || c.isDigit

/-- Whether a character may stand in the label of a string, or continue a name right behind an
arrow in one. -/
def isLabelChar (c : Char) : Bool :=
  c.isAlphanum || c == '_'

def startsName : List Char → Bool
  | c :: _ => isNameStart c
  | [] => false

def nameLength (cs : List Char) : Nat :=
  (cs.takeWhile isNameChar).length

/-- Whether a text starts with another, ASCII capitals and small letters being the same. -/
def startsFolded : List Char → List Char → Bool
  | [], _ => true
  | _, [] => false
  | p :: ps, c :: cs => p == c.toLower && startsFolded ps cs

/-- The length of the tag that opens a code island here, if one does. -/
def tagLength? (cs : List Char) : Option Nat :=
  if startsFolded ['<', '?', 'p', 'h', 'p'] cs then some 5
  else if startsFolded ['<', '?', '='] cs then some 3
  else if startsFolded ['<', '?'] cs then some 2
  else none

/-- The text up to the next tag that opens a code island. -/
def beforeTag : List Char → List Char
  | [] => []
  | c :: cs => if (tagLength? (c :: cs)).isSome then [] else c :: beforeTag cs

/-- The part of the text around code that counts as text: blanks at the end do, except after an
opening angle bracket. -/
def visibleText (cs : List Char) : List Char :=
  let trimmed := Text.dropEndWhile isSpace cs
  if trimmed.getLast? = some '<' then trimmed else cs

/-- The number of characters from the end of a code island to the start of the next. -/
def interludeLength (cs : List Char) : Nat :=
  let outside := beforeTag (cs.drop 2)
  match tagLength? ((cs.drop 2).drop outside.length) with
  | some n => 2 + outside.length + n
  | none => if outside.all isSpace then 2 else 2 + (visibleText outside).length

/-- The number of characters up to the end of a remark, if it ends. -/
def blockLength? : List Char → Option Nat
  | [] => none
  | c :: cs =>
    if c == '*' && cs.head? == some '/' then some 2 else (blockLength? cs).map (· + 1)

/-- The number of characters of a remark that ends with its line or its code island. A question
mark goes with the character behind it, so that two of them do not end the island, and one at the
end of the line takes the line end along. -/
def lineLength : List Char → Nat
  | [] => 0
  | '?' :: '\n' :: _ => 2
  | '?' :: '\r' :: '\n' :: _ => 3
  | ['?'] => 0
  | '?' :: c :: cs => if c == '>' || c == '\r' then 0 else 2 + lineLength cs
  | c :: cs => if isLineEnd c then 0 else 1 + lineLength cs

/-- The number of characters of a remark behind its number sign. Right behind the sign, a question
mark or a line end belongs to no remark. -/
def hashLength (cs : List Char) : Nat :=
  match cs with
  | [] => 0
  | c :: r => if c == '?' || isLineEnd c then 0 else 1 + lineLength r

/-- The number of characters of a plain string behind its opening quote, if it ends. -/
def plainLength? : List Char → Option Nat
  | [] => none
  | '\\' :: _ :: cs => (plainLength? cs).map (· + 2)
  | c :: cs => if c == '\'' then some 1 else (plainLength? cs).map (· + 1)

/-- The number of digits, each of which may have an underscore before it. -/
def digitsLength (isDigit : Char → Bool) : List Char → Nat
  | [] => 0
  | [c] => if isDigit c then 1 else 0
  | c :: d :: cs =>
    if isDigit c || (c == '_' && isDigit d) then 1 + digitsLength isDigit (d :: cs) else 0

/-- The length of an exponent, if one stands here. -/
def exponentLength (cs : List Char) : Nat :=
  match cs with
  | e :: s :: cs =>
    if e == 'e' || e == 'E' then
      if s.isDigit then 1 + digitsLength Char.isDigit (s :: cs)
      else if s == '+' || s == '-' then
        if cs.head?.any Char.isDigit then 2 + digitsLength Char.isDigit cs else 0
      else 0
    else 0
  | _ => 0

def isHexDigit (c : Char) : Bool :=
  c.isDigit || ('a' ≤ c && c ≤ 'f') || ('A' ≤ c && c ≤ 'F')

def isOctalDigit (c : Char) : Bool :=
  '0' ≤ c && c ≤ '7'

def isBinaryDigit (c : Char) : Bool :=
  c == '0' || c == '1'

/-- The length of an integer. A zero at the front asks for the base eight or for a letter that names
the base. -/
def integerLength (cs : List Char) : Nat :=
  match cs with
  | '0' :: x :: r =>
    if (x == 'x' || x == 'X') && r.head?.any isHexDigit then 2 + digitsLength isHexDigit r
    else if (x == 'b' || x == 'B') && r.head?.any isBinaryDigit then
      2 + digitsLength isBinaryDigit r
    else if x == 'o' || x == 'O' then 2 + digitsLength isOctalDigit r
    else 1 + digitsLength isOctalDigit (x :: r)
  | _ => digitsLength Char.isDigit cs

/-- The length of a number with a point or an exponent, if one stands here. -/
def floatLength (cs : List Char) : Nat :=
  let whole := digitsLength Char.isDigit cs
  match cs.drop whole with
  | '.' :: r =>
    let point := whole + 1 + digitsLength Char.isDigit r
    point + exponentLength (cs.drop point)
  | r => if exponentLength r == 0 then 0 else whole + exponentLength r

def numberLength (cs : List Char) : Nat :=
  max (integerLength cs) (floatLength cs)

/-- The two words that hand over to another generator, a single blank between them. -/
def delegation : List Char := "yield from".toList

/-- The operators and punctuation of more than one character, longer ones first. -/
def symbols : List String :=
  ["<=>", "**=", "...", "<<=", ">>=", "===", "!==", "??=", "?->", "&&", "||", "??", "->", "=>",
    "::", "==", "!=", "<>", "<=", ">=", "++", "--", "+=", "-=", "*=", "/=", ".=", "%=", "&=", "|=",
    "^=", "<<", ">>", "**", "#["]

/-- The length of the operator or punctuation that starts here. -/
def symbolLength (cs : List Char) : Nat :=
  match symbols.find? (fun s => s.toList.isPrefixOf cs) with
  | some s => s.length
  | none => 1

end Lexeme

end Scaffold.Php
