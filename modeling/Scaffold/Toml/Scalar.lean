import Scaffold.Config.Value
import Scaffold.Text.Blank

namespace Scaffold.Toml

/-- The value of a digit in bases up to sixteen. -/
def digitValue? (c : Char) : Option Nat :=
  if '0' ≤ c && c ≤ '9' then some (c.toNat - '0'.toNat)
  else if 'a' ≤ c && c ≤ 'f' then some (c.toNat - 'a'.toNat + 10)
  else if 'A' ≤ c && c ≤ 'F' then some (c.toNat - 'A'.toNat + 10)
  else none

def ofDigits? (base : Nat) (cs : List Char) : Option Nat :=
  cs.foldlM (fun n c =>
    match digitValue? c with
    | some d => if d < base then some (base * n + d) else none
    | none => none) 0

/-- The digits of a number in which an underscore may stand between any two digits. -/
def digits? (base : Nat) (cs : List Char) : Option (List Char) :=
  let groups := Text.splitWhere (· == '_') cs
  let ds := groups.flatten
  if groups.all (!·.isEmpty) && (ofDigits? base ds).isSome then some ds else none

/-- A sign, if there is one, and what follows: the sign is true for a minus. -/
def splitSign : List Char → Bool × List Char
  | '-' :: cs => (true, cs)
  | '+' :: cs => (false, cs)
  | cs => (false, cs)

/-- The digits of a decimal number without a needless zero at the front. -/
def decimalDigits? (cs : List Char) : Option (List Char) :=
  match digits? 10 cs with
  | some ds => if ds.head? == some '0' && ds.length != 1 then none else some ds
  | none => none

/-- Whether a number fits 64 bits with a sign. -/
def inRange (n : Int) : Bool :=
  Int64.minValue.toInt ≤ n && n ≤ Int64.maxValue.toInt

def signedInteger? (negative : Bool) (n : Nat) : Option Value :=
  let i : Int := if negative then -n else n
  if inRange i then some (.integer i) else none

def basedInteger? (base : Nat) (cs : List Char) : Option Value := do
  let ds ← digits? base cs
  signedInteger? false (← ofDigits? base ds)

def integer? (cs : List Char) : Option Value :=
  match cs with
  | '0' :: 'x' :: rest => basedInteger? 16 rest
  | '0' :: 'o' :: rest => basedInteger? 8 rest
  | '0' :: 'b' :: rest => basedInteger? 2 rest
  | cs => do
    let (negative, rest) := splitSign cs
    let ds ← decimalDigits? rest
    signedInteger? negative (← ofDigits? 10 ds)

/-- Whether `digits` times ten to the power `exponent` is too large for a number of 64 bits with a
fraction: it would be rounded to `2 ^ 1024`. -/
def overflows (digits : List Char) (exponent : Int) : Bool :=
  let ds := digits.dropWhile (· == '0')
  let magnitude := (ds.length : Int) + exponent
  if ds.isEmpty || magnitude < 300 then false
  else if 400 < magnitude then true
  else
    let limit := Nat.pow 2 1024 - Nat.pow 2 970
    let n := (ofDigits? 10 ds).getD 0
    if 0 ≤ exponent then limit ≤ n * Nat.pow 10 exponent.toNat
    else limit * Nat.pow 10 (-exponent).toNat ≤ n

/-- The exponent behind an `e`. -/
def exponent? (cs : List Char) : Option Int := do
  let (negative, rest) := splitSign cs
  let ds ← digits? 10 rest
  let n ← ofDigits? 10 ds
  return if negative then -(n : Int) else n

/-- Cuts at the first character of a class; the second part is what follows that character. -/
def cutAt (p : Char → Bool) (cs : List Char) : List Char × Option (List Char) :=
  match cs.dropWhile (!p ·) with
  | [] => (cs, none)
  | _ :: rest => (cs.takeWhile (!p ·), some rest)

/-- A number with a fraction, an exponent or both. A positive one that is too large is none. -/
def real? (cs : List Char) : Option Value := do
  let (negative, unsigned) := splitSign cs
  if unsigned == "inf".toList || unsigned == "nan".toList then return .real (.ofList cs)
  let (mantissa, power) := cutAt (fun c => c == 'e' || c == 'E') unsigned
  let (whole, fraction) := cutAt (· == '.') mantissa
  if power.isNone && fraction.isNone then failure
  let wholeDigits ← decimalDigits? whole
  let fractionDigits ← match fraction with
    | some f => digits? 10 f
    | none => pure []
  let exponent ← match power with
    | some p => exponent? p
    | none => pure 0
  if !negative && overflows (wholeDigits ++ fractionDigits) (exponent - fractionDigits.length) then
    failure
  return .real (.ofList cs)

/-- A number of exactly so many digits. -/
def fixedNumber? (width : Nat) (cs : List Char) : Option Nat :=
  if cs.length == width && cs.all Char.isDigit then ofDigits? 10 cs else none

def daysInMonth (year month : Nat) : Nat :=
  if month == 2 then
    if year % 4 == 0 && (year % 100 != 0 || year % 400 == 0) then 29 else 28
  else if [4, 6, 9, 11].contains month then 30
  else 31

/-- Whether a text is a date such as `1979-05-27`. -/
def isDate (cs : List Char) : Bool :=
  match Text.splitWhere (· == '-') cs with
  | [y, m, d] =>
    match fixedNumber? 4 y, fixedNumber? 2 m, fixedNumber? 2 d with
    | some y, some m, some d => 1 ≤ m && m ≤ 12 && 1 ≤ d && d ≤ daysInMonth y m
    | _, _, _ => false
  | _ => false

/-- Whether a text is a number of two digits up to a bound. -/
def isPart (bound : Nat) (cs : List Char) : Bool :=
  match fixedNumber? 2 cs with
  | some n => n ≤ bound
  | none => false

/-- Whether a text is a number of seconds, with or without a fraction. -/
def isSeconds (cs : List Char) : Bool :=
  match cutAt (· == '.') cs with
  | (whole, none) => isPart 60 whole
  | (whole, some fraction) => isPart 60 whole && !fraction.isEmpty && fraction.all Char.isDigit

/-- Whether a text is a time of the day such as `07:32:00`. -/
def isTime (cs : List Char) : Bool :=
  match Text.splitWhere (· == ':') cs with
  | [h, m, s] => isPart 23 h && isPart 59 m && isSeconds s
  | _ => false

/-- Whether a text is a distance from universal time such as `+01:00`. -/
def isOffset (cs : List Char) : Bool :=
  match Text.splitWhere (· == ':') cs with
  | [h, m] => isPart 23 h && isPart 59 m
  | _ => false

/-- Whether a text is a time of the day, with or without a distance from universal time. -/
def isZonedTime (cs : List Char) : Bool :=
  match cutAt (fun c => c == 'Z' || c == 'z') cs with
  | (time, some rest) => isTime time && rest.isEmpty
  | (_, none) =>
    match cutAt (fun c => c == '+' || c == '-') cs with
    | (time, none) => isTime time
    | (time, some offset) => isTime time && isOffset offset

/-- Whether a text is a date, a time, or both with a `T` or a blank between them. -/
def isMoment (cs : List Char) : Bool :=
  isDate cs || isTime cs ||
    match cutAt (fun c => c == 'T' || c == 't' || c == ' ') cs with
    | (date, some time) => isDate date && isZonedTime time
    | (_, none) => false

def scalar? (cs : List Char) : Option Value :=
  if cs == "true".toList then some (.boolean true)
  else if cs == "false".toList then some (.boolean false)
  else if isMoment cs then some (Value.moment (.ofList cs))
  else (integer? cs).or (real? cs)

def isWordChar (c : Char) : Bool :=
  c.isAlphanum || c == '_' || c == '+' || c == '-' || c == '.' || c == ':'

end Scaffold.Toml
