namespace Scaffold

/-- A setting whose type is not known yet. -/
inductive Value where
  | text (s : String)
  | integer (n : Int)
  /-- A number with a fraction or an exponent, as written. -/
  | real (literal : String)
  | boolean (b : Bool)
  /-- A single character, which is a text where one is asked for. -/
  | character (c : Char)
  | list (items : List Value)
  | table (entries : List (String × Value))
  deriving Repr, Inhabited

namespace Value

/-- Puts a value at a key, in place of the one that is there or behind all others. -/
def put (key : String) (v : Value) : List (String × Value) → List (String × Value)
  | [] => [(key, v)]
  | e :: es => if e.1 == key then (key, v) :: es else e :: put key v es

/-- The key under which a date or a time stands in a table of its own. -/
def momentKey : String := "$__toml_private_datetime"

/-- A date or a time, as written. -/
def moment (literal : String) : Value :=
  table [(momentKey, text literal)]

/-- The first key of some entries in the order of texts. -/
def firstKey? : List (String × Value) → Option String
  | [] => none
  | e :: es =>
    match firstKey? es with
    | some k => some (if k < e.1 then k else e.1)
    | none => some e.1

def get? (key : String) : Value → Option Value
  | table es => es.lookup key
  | _ => none

def at? : List String → Value → Option Value
  | [], v => some v
  | k :: ks, v => (v.get? k).bind (at? ks)

mutual

/-- Lays the second value over the first. -/
def merge : Value → Value → Value
  | table old, table new => table (mergeEntries old new)
  | _, new => new

/-- Lays entries over the entries of a table. -/
def mergeEntries (old : List (String × Value)) : List (String × Value) → List (String × Value)
  | [] => old
  | (k, v) :: rest =>
    mergeEntries (put k (match old.lookup k with
      | some u => merge u v
      | none => v) old) rest

end

/-- Lays settings over each other, the later over the earlier ones. -/
def mergeAll (layers : List Value) : Value :=
  layers.foldl merge (table [])

/-- The table in which a path of keys leads to a value. -/
def nest : List String → Value → Value
  | [], v => v
  | k :: ks, v => table [(k, nest ks v)]

end Value

end Scaffold
