import Scaffold.Report.Summary
import Scaffold.Report.Table

namespace Scaffold

inductive SummaryFormat where
  | table
  | json
  deriving DecidableEq, Repr

namespace Summary

def headers : List String :=
  ["All files", "All classes", "Related classes", "Added methods"]

def fieldNames : List String :=
  ["files_scanned", "classes_found", "classes_updated", "methods_added"]

def counts (s : Summary) : List Nat :=
  [s.filesScanned.toNat, s.classesFound.toNat, s.classesUpdated.toNat, s.methodsAdded.toNat]

def toTable (s : Summary) (limit : Option Nat) : String :=
  Table.render limit headers [s.counts.map fun n => toString n]

/-- One field of a record on a line of its own. -/
def fieldLine (name : String) (count : Nat) : String :=
  "  \"" ++ name ++ "\": " ++ toString count

/-- The counts as a JSON object with a field on each line. -/
def toJson (s : Summary) : String :=
  "\x7b\n" ++ ",\n".intercalate (List.zipWith fieldLine fieldNames s.counts) ++ "\n\x7d"

/-- The counts in a form; a table keeps to the limit. -/
def render (s : Summary) (format : SummaryFormat) (limit : Option Nat) : String :=
  match format with
  | .table => s.toTable limit
  | .json => s.toJson

end Summary

end Scaffold
