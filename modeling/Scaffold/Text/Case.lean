import Scaffold.Text.CaseTable

namespace Scaffold.Text

/-- The image of a character under runs of simple mappings and a list of sequences. -/
def mapCase (runs : List CaseRun) (sequences : List (Nat × List Nat)) (c : Char) : List Char :=
  match runs.findSome? (·.map? c.toNat) with
  | some n => [Char.ofNat n]
  | none =>
    match sequences.lookup c.toNat with
    | some ns => ns.map Char.ofNat
    | none => [c]

/-- The lowercase form of one character, without regard to its neighbours. -/
def lowerChar (c : Char) : List Char :=
  mapCase lowerRuns lowerSequences c

/-- The uppercase form of one character. -/
def upperChar (c : Char) : List Char :=
  mapCase upperRuns upperSequences c

/-- Whether the first character that is not skipped is a cased one. -/
def startsCased (cs : List Char) : Bool :=
  match cs.dropWhile (fun c => inIntervals ignorableIntervals c.toNat) with
  | [] => false
  | c :: _ => inIntervals casedIntervals c.toNat

/-- The lowercase form of a text that follows the reversed text `before`. -/
def lowerFrom (before : List Char) : List Char → List Char
  | [] => []
  | c :: cs =>
    let image :=
      if c = 'Σ' then [if startsCased before && !startsCased cs then 'ς' else 'σ'] else lowerChar c
    image ++ lowerFrom (c :: before) cs

def lower (cs : List Char) : List Char :=
  lowerFrom [] cs

end Scaffold.Text
