import Scaffold.Config.Value

namespace Scaffold.Toml

/-- How a table came to be. -/
inductive TableOrigin where
  /-- It has a header, or it is the document. -/
  | header
  /-- A header of a table inside of it was read. -/
  | passage
  /-- A dotted key leads through it. -/
  | dotted
  deriving DecidableEq, Repr

inductive Node where
  | value (v : Value)
  | table (origin : TableOrigin) (entries : List (String × Node))
  /-- Tables under headers in double brackets, the latest first. -/
  | tables (elements : List (List (String × Node)))
  deriving Inhabited

abbrev Entries := List (String × Node)

namespace Entries

/-- Puts something at a key, in place of what is there or behind all others. -/
def put (key : String) (n : Node) : Entries → Entries
  | [] => [(key, n)]
  | e :: es => if e.1 == key then (key, n) :: es else e :: put key n es

/-- Changes the table that a path of keys leads to. Tables on the way that are not there are made,
as `made`; with `made = .dotted`, no table with a header may be on the way. Of tables under headers
in double brackets the latest is meant. -/
def within (made : TableOrigin) (change : TableOrigin → Entries → Option Entries) :
    List String → TableOrigin → Entries → Option Entries
  | [], origin, es => change origin es
  | k :: ks, _, es =>
    match es.lookup k with
    | none => (within made change ks made []).map fun inner => es.put k (.table made inner)
    | some (.table origin inner) =>
      if made == .dotted && origin == .header then none
      else (within made change ks origin inner).map fun inner => es.put k (.table origin inner)
    | some (.tables (latest :: earlier)) =>
      (within made change ks .header latest).map fun inner => es.put k (.tables (inner :: earlier))
    | some _ => none

/-- Adds a value at a key of the table at hand. Keys without dots belong to tables with a header,
those with dots to tables made by dotted keys, and no key may be there already. -/
def addValue (dotted : Bool) (key : String) (v : Value) (origin : TableOrigin) (es : Entries) :
    Option Entries :=
  if (origin == .dotted) != dotted || (es.lookup key).isSome then none
  else some (es.put key (.value v))

def insert (es : Entries) (header path : List String) (key : String) (v : Value) :
    Option Entries :=
  within .passage (within .dotted (addValue (!path.isEmpty) key v) path) header .header es

def openTable (key : String) (_ : TableOrigin) (es : Entries) : Option Entries :=
  match es.lookup key with
  | none => some (es.put key (.table .header []))
  | some (.table .passage inner) => some (es.put key (.table .header inner))
  | some _ => none

/-- Opens one more table under a header in double brackets. -/
def openElement (key : String) (_ : TableOrigin) (es : Entries) : Option Entries :=
  match es.lookup key with
  | none => some (es.put key (.tables [[]]))
  | some (.tables elements) => some (es.put key (.tables ([] :: elements)))
  | some _ => none

end Entries

mutual

def Node.toValue : Node → Value
  | .value v => v
  | .table _ es => .table (entriesToValues es)
  | .tables elements => .list (elementsToValues elements).reverse

def entriesToValues : List (String × Node) → List (String × Value)
  | [] => []
  | (k, n) :: rest => (k, n.toValue) :: entriesToValues rest

def elementsToValues : List (List (String × Node)) → List Value
  | [] => []
  | es :: rest => .table (entriesToValues es) :: elementsToValues rest

end

def Entries.toValue (es : Entries) : Value :=
  .table (entriesToValues es)

end Scaffold.Toml
