import Scaffold.Naming

namespace Scaffold

structure SourceConfig where
  /-- The directory to which namespaces and paths of tests are relative. -/
  base : String := "app"
  roots : List String := ["app/Services", "app/Support", "app/Traits"]
  /-- A file is left out if one of these occurs in its path below its root. -/
  exclude : List String := ["Macros", "Facades"]
  extension : String := "php"
  deriving DecidableEq, Repr, Inhabited

structure TargetConfig where
  namesp : String := "Tests\\Unit"
  directory : String := "tests/Unit"
  template : String := "tests/Unit/ExampleTest.php"
  methodFormat : MethodFormat := .snake
  deriving DecidableEq, Repr

structure GeneralConfig where
  dryRun : Bool := false
  parallel : Bool := false
  deriving DecidableEq, Repr

structure Config where
  source : SourceConfig := {}
  target : TargetConfig := {}
  general : GeneralConfig := {}
  deriving DecidableEq, Repr

structure InvalidValue where
  field : String
  reason : String
  deriving DecidableEq, Repr

def InvalidValue.message (e : InvalidValue) : String :=
  "Invalid configuration value for '" ++ e.field ++ "': " ++ e.reason

namespace Config

open Text

/-- Removes a character at both ends. -/
def stripChar (c : Char) (cs : List Char) : List Char :=
  dropEndWhile (· == c) (cs.dropWhile (· == c))

/-- A namespace without blanks and then without backslashes at its ends. -/
def normalNamespace (s : String) : String :=
  .ofList (stripChar '\\' (trimChars s.toList))

/-- A file extension without blanks at its ends and then without dots at the front. -/
def normalExtension (s : String) : String :=
  .ofList ((trimChars s.toList).dropWhile (· == '.'))

def normalized (c : Config) : Config :=
  { c with
    target := { c.target with namesp := normalNamespace c.target.namesp }
    source := { c.source with
      extension := normalExtension c.source.extension
      roots := c.source.roots.filter (!isBlankText ·)
      exclude := c.source.exclude.filter (!·.isEmpty) } }

/-- Refuses values that no run can work with; the first one counts. -/
def validate (c : Config) : Except InvalidValue Unit :=
  if c.source.roots.all isBlankText then
    .error ⟨"source.roots", "at least one source root is required"⟩
  else if c.source.extension.isEmpty then .error ⟨"source.extension", "must not be empty"⟩
  else if c.target.namesp.isEmpty then .error ⟨"target.namespace", "must not be empty"⟩
  else if isBlankText c.target.template then
    .error ⟨"target.template", "must name a skeleton file"⟩
  else .ok ()

end Config

end Scaffold
