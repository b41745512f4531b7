import Scaffold.Config.Literal

namespace Scaffold

/-- Variables with their values, in the order in which they were set. -/
structure Environment where
  bindings : List (String × String) := []
  deriving DecidableEq, Repr, Inhabited

inductive EnvironmentFault where
  /-- An escape in the value of a variable asks for a cut inside a character. -/
  | splitCharacter (name : String)
  /-- The value for a variable holds the character zero, which no variable can. -/
  | zeroCharacter (name : String)
  deriving DecidableEq, Repr

def EnvironmentFault.message : EnvironmentFault → String
  | splitCharacter name => "the value of " ++ name ++ " is cut inside a character"
  | zeroCharacter name => "the value of " ++ name ++ " holds the character zero"

namespace Environment

def get? (env : Environment) (name : String) : Option String :=
  env.bindings.lookup name

/-- Sets a variable that is not set yet. -/
def setDefault (env : Environment) (name value : String) : Environment :=
  if (env.get? name).isSome then env else ⟨env.bindings ++ [(name, value)]⟩

/-- How the names of variables with settings start. -/
def marker : List Char := "testsmith_".toList

/-- Cuts a text at every pair of underscores and at every dot. -/
def splitKey : List Char → List (List Char)
  | [] => [[]]
  | '_' :: '_' :: cs => [] :: splitKey cs
  | '.' :: cs => [] :: splitKey cs
  | c :: cs =>
    match splitKey cs with
    | [] => [[c]]
    | w :: ws => (c :: w) :: ws

/-- The path of keys that the name of a variable stands for, if it holds a setting. -/
def settingPath? (name : String) : Option (List String) :=
  let cs := (Text.trimChars name.toList).map Char.toLower
  if marker.isPrefixOf cs then
    let path := splitKey (Text.trimChars (cs.drop marker.length))
    if path.all (!·.isEmpty) then some (path.map String.ofList) else none
  else none

/-- The setting that a variable holds, if it holds one. -/
def setting? (v : String × String) : Except EnvironmentFault (Option Value) :=
  match settingPath? v.1 with
  | none => .ok none
  | some path =>
    match Literal.parse? v.2 with
    | some value => .ok (some (Value.nest path value))
    | none => .error (.splitCharacter v.1)

/-- The settings that the variables hold, later ones laid over earlier ones. -/
def settings (env : Environment) : Except EnvironmentFault Value := do
  return Value.mergeAll ((← env.bindings.mapM setting?).filterMap id)

end Environment

end Scaffold
