import Scaffold.Toml.Quoted

namespace Scaffold.Literal

open Toml (cutAt ofDigits? splitSign escape?)

def isSpace (c : Char) : Bool :=
  c == ' ' || c == '\t' || c == '\n' || c == '\r' || c == '\x0c'

def isDelimiter (c : Char) : Bool :=
  c == ',' || c == '\x7b' || c == '\x7d' || c == '[' || c == ']'

def isKeyChar (c : Char) : Bool :=
  c.isAlphanum || c == '_' || c == '-'

def isNumber (cs : List Char) : Bool :=
  !cs.isEmpty && cs.all Char.isDigit

/-- Whether a text is a decimal number with a point. -/
def isReal (cs : List Char) : Bool :=
  let (mantissa, power) := cutAt (fun c => c == 'e' || c == 'E') (splitSign cs).2
  let powerFits := match power with
    | none => true
    | some p => isNumber (splitSign p).2
  powerFits && match cutAt (· == '.') mantissa with
    | (whole, some fraction) =>
      isNumber (whole ++ fraction) && fraction.all Char.isDigit
    | (_, none) => false

/-- The integer that a text stands for, if it fits 64 bits, with or without a sign. -/
def integer? (cs : List Char) : Option Int :=
  let (negative, digits) := splitSign cs
  if !isNumber digits then none
  else
    let n := (ofDigits? 10 digits).getD 0
    if negative then if Int64.minValue.toInt ≤ -n then some (-n) else none
    else if n < UInt64.size then some n
    else none

/-- The value of a word without quotes and brackets. -/
def word (cs : List Char) : Value :=
  let cs := Text.trimChars cs
  if isReal cs then .real (.ofList cs)
  else match integer? cs with
    | some n => .integer n
    | none => .text (.ofList cs)

inductive Trouble where
  | malformed
  /-- A cut inside a character. -/
  | splitCharacter
  deriving DecidableEq, Repr

/-- The text up to the next double quote as it stands, given what follows the first of them; a
backslash hides the next character. -/
def untilQuote? : List Char → Option (List Char × List Char)
  | [] => none
  | ['\\'] => none
  | '\\' :: c :: cs => (untilQuote? cs).map fun (s, rest) => ('\\' :: c :: s, rest)
  | c :: cs =>
    if c == '"' then some ([], cs) else (untilQuote? cs).map fun (s, rest) => (c :: s, rest)

/-- The characters that make up the first `n` bytes of a text, unless a character lies across that
place. -/
def firstBytes? : Nat → List Char → Option (List Char)
  | 0, _ => some []
  | _, [] => some []
  | n + 1, c :: cs =>
    if c.utf8Size ≤ n + 1 then (firstBytes? (n + 1 - c.utf8Size) cs).map (c :: ·) else none

/-- Puts characters in the place of escapes. No other control character than a tab may occur. The
steps are bounded. -/
def unescapeTo : Nat → List Char → Option (List Char)
  | 0, _ => none
  | _, [] => some []
  | steps + 1, c :: cs =>
    if c == '\\' then do
      let (e, rest) ← escape? cs
      return e :: (← unescapeTo steps rest)
    else if Toml.isPlain c then (unescapeTo steps cs).map (c :: ·)
    else none

/-- Puts characters in the place of escapes. Of what comes before the first escape, as many bytes
are kept as there are characters. -/
def unescape (cs : List Char) : Except Trouble (List Char) :=
  let plain := cs.takeWhile (· != '\\')
  if !plain.all Toml.isPlain then .error .malformed
  else if plain.length == cs.length then .ok cs
  else match firstBytes? plain.length cs with
    | none => .error .splitCharacter
    | some kept =>
      match unescapeTo (cs.length + 1) (cs.drop plain.length) with
      | some rest => .ok (kept ++ rest)
      | none => .error .malformed

def orMalformed : Option α → Except Trouble α
  | some a => .ok a
  | none => .error .malformed

/-- The text between double quotes, given what follows the first of them. -/
def quoted (cs : List Char) : Except Trouble (List Char × List Char) := do
  let (raw, rest) ← orMalformed (untilQuote? cs)
  return (← unescape raw, rest)

/-- Items between an opening and a closing character, given what follows the former: a comma stands
between two items and may follow the last one. -/
def itemsTo (item : List Char → Except Trouble (α × List Char)) (closing : Char) :
    Nat → List Char → Except Trouble (List α × List Char)
  | 0, _ => .error .malformed
  | n + 1, cs =>
    if cs.head? == some closing then .ok ([], cs.tail)
    else do
      let (a, rest) ← item cs
      match rest with
      | c :: rest =>
        if c == ',' then
          let (as, rest) ← itemsTo item closing n rest
          return (a :: as, rest)
        else if c == closing then return ([a], rest)
        else .error .malformed
      | [] => .error .malformed

def items (item : List Char → Except Trouble (α × List Char)) (closing : Char) (cs : List Char) :
    Except Trouble (List α × List Char) :=
  itemsTo item closing (cs.length + 1) cs

def key (cs : List Char) : Except Trouble (String × List Char) :=
  match cs with
  | '"' :: rest => (quoted rest).map fun (s, rest) => (.ofList s, rest)
  | cs =>
    let name := cs.takeWhile isKeyChar
    if name.isEmpty then .error .malformed else .ok (.ofList name, cs.dropWhile isKeyChar)

def keyValue (value : List Char → Except Trouble (Value × List Char)) (cs : List Char) :
    Except Trouble ((String × Value) × List Char) := do
  let (k, rest) ← key (cs.dropWhile isSpace)
  match rest.dropWhile isSpace with
  | '=' :: rest =>
    let (v, rest) ← value (rest.dropWhile isSpace)
    return ((k, v), rest.dropWhile isSpace)
  | _ => .error .malformed

/-- What follows a text, if the latter comes first. -/
def after? (start cs : List Char) : Option (List Char) :=
  if start.isPrefixOf cs then some (cs.drop start.length) else none

/-- A value with the blanks around it, nested to at most so many levels. -/
def valueTo : Nat → List Char → Except Trouble (Value × List Char)
  | 0, _ => .error .malformed
  | depth + 1, cs => do
    let cs := cs.dropWhile isSpace
    let (v, rest) ←
      match after? "true".toList cs, after? "false".toList cs, cs with
      | some rest, _, _ => .ok (.boolean true, rest)
      | _, some rest, _ => .ok (.boolean false, rest)
      | _, _, '\x7b' :: rest =>
        (items (keyValue (valueTo depth)) '\x7d' rest).map fun (es, rest) =>
          (.table (es.foldl (fun t (k, v) => Value.put k v t) []), rest)
      | _, _, '[' :: rest =>
        (items (valueTo depth) ']' rest).map fun (vs, rest) => (.list vs, rest)
      | _, _, '"' :: rest => (quoted rest).map fun (s, rest) => (.text (.ofList s), rest)
      | _, _, '\'' :: c :: '\'' :: rest => .ok (.character c, rest)
      | _, _, '\'' :: _ => .error .malformed
      | _, _, cs => .ok (word (cs.takeWhile (!isDelimiter ·)), cs.dropWhile (!isDelimiter ·))
    return (v, rest.dropWhile isSpace)

/-- The value that a text stands for, unless a cut splits a character. -/
def parse? (s : String) : Option Value :=
  match valueTo (s.length + 1) s.toList with
  | .ok (v, []) => some v
  | .error .splitCharacter => none
  | _ => some (.text s)

end Scaffold.Literal
