import Scaffold.Config.Basic
import Scaffold.Config.Value

namespace Scaffold

/-- Why settings are no configuration. The key is the path to the setting, with the positions in
lists as texts. -/
inductive SettingFault where
  | wrongType (key : List String)
  | unknownChoice (key : List String)
  deriving DecidableEq, Repr

def SettingFault.key : SettingFault → List String
  | wrongType key => key
  | unknownChoice key => key

def MethodFormat.word : MethodFormat → String
  | snake => "snake"
  | camel => "camel"

def MethodFormat.ofWord? : String → Option MethodFormat
  | "snake" => some .snake
  | "camel" => some .camel
  | _ => none

namespace Value

def asText (key : List String) : Value → Except SettingFault String
  | text s => .ok s
  | character c => .ok (.ofList [c])
  | _ => .error (.wrongType key)

def asBoolean (key : List String) : Value → Except SettingFault Bool
  | boolean b => .ok b
  | _ => .error (.wrongType key)

/-- Reads texts, the first of which stands at position `i`. -/
def asTexts (key : List String) (i : Nat) : List Value → Except SettingFault (List String)
  | [] => .ok []
  | v :: vs => do
    let s ← v.asText (key ++ [toString i])
    let ss ← asTexts key (i + 1) vs
    return s :: ss

def asTextList (key : List String) : Value → Except SettingFault (List String)
  | list items => asTexts key 0 items
  | _ => .error (.wrongType key)

/-- Reads a convention. In a table, the first key names the convention, and what stands there is
more than a name. -/
def asMethodFormat (key : List String) : Value → Except SettingFault MethodFormat
  | text s =>
    match MethodFormat.ofWord? s with
    | some f => .ok f
    | none => .error (.unknownChoice key)
  | table entries =>
    match firstKey? entries with
    | some k =>
      if (MethodFormat.ofWord? k).isSome then .error (.wrongType (key ++ [k]))
      else .error (.unknownChoice (key ++ [k]))
    | none => .error (.wrongType key)
  | _ => .error (.wrongType key)

/-- Reads the setting at a key, which has a default. -/
def setting (v : Value) (key : List String) (read : List String → Value → Except SettingFault α)
    (dflt : α) : Except SettingFault α :=
  match v.at? key with
  | some s => read key s
  | none => .ok dflt

/-- Reads a section; where it is there, it has to be a table. -/
def checkSection (v : Value) (name : String) : Except SettingFault Unit :=
  match v.get? name with
  | some (table _) => .ok ()
  | some _ => .error (.wrongType [name])
  | none => .ok ()

end Value

namespace Config

/-- The configuration that settings describe. Sections and their keys are read in alphabetical
order; the first fault counts. -/
def ofValue (v : Value) : Except SettingFault Config := do
  let base : Config := {}
  v.checkSection "general"
  let dryRun ← v.setting ["general", "dry_run"] Value.asBoolean base.general.dryRun
  let parallel ← v.setting ["general", "parallel"] Value.asBoolean base.general.parallel
  v.checkSection "source"
  let sourceBase ← v.setting ["source", "base"] Value.asText base.source.base
  let exclude ← v.setting ["source", "exclude"] Value.asTextList base.source.exclude
  let extension ← v.setting ["source", "extension"] Value.asText base.source.extension
  let roots ← v.setting ["source", "roots"] Value.asTextList base.source.roots
  v.checkSection "target"
  let directory ← v.setting ["target", "directory"] Value.asText base.target.directory
  let methodFormat ←
    v.setting ["target", "method_format"] Value.asMethodFormat base.target.methodFormat
  let namesp ← v.setting ["target", "namespace"] Value.asText base.target.namesp
  let template ← v.setting ["target", "template"] Value.asText base.target.template
  return {
    source := { base := sourceBase, roots, exclude, extension }
    target := { namesp, directory, template, methodFormat }
    general := { dryRun, parallel } }

/-- The settings that describe a configuration. -/
def toValue (c : Config) : Value :=
  .table [
    ("source", .table [("base", .text c.source.base),
      ("roots", .list (c.source.roots.map .text)),
      ("exclude", .list (c.source.exclude.map .text)), ("extension", .text c.source.extension)]),
    ("target", .table [("namespace", .text c.target.namesp),
      ("directory", .text c.target.directory), ("template", .text c.target.template),
      ("method_format", .text c.target.methodFormat.word)]),
    ("general", .table [("dry_run", .boolean c.general.dryRun),
      ("parallel", .boolean c.general.parallel)])]

end Config

/-- Settings given for one run only. What is not given leaves other settings alone. -/
structure Overrides where
  base : Option String := none
  roots : Option (List String) := none
  exclude : Option (List String) := none
  namesp : Option String := none
  directory : Option String := none
  template : Option String := none
  methodFormat : Option MethodFormat := none
  dryRun : Option Bool := none
  parallel : Option Bool := none
  deriving DecidableEq, Repr

namespace Overrides

def entry (key : String) (wrap : α → Value) (given : Option α) : List (String × Value) :=
  (given.map fun a => (key, wrap a)).toList

/-- The settings as a table. All three sections are there, even if they are empty. -/
def toValue (o : Overrides) : Value :=
  .table [
    ("source", .table (entry "base" .text o.base ++
      entry "roots" (fun ss => .list (ss.map .text)) o.roots ++
      entry "exclude" (fun ss => .list (ss.map .text)) o.exclude)),
    ("target", .table (entry "namespace" .text o.namesp ++ entry "directory" .text o.directory ++
      entry "template" .text o.template ++
      entry "method_format" (fun f => .text f.word) o.methodFormat)),
    ("general", .table (entry "dry_run" .boolean o.dryRun ++
      entry "parallel" .boolean o.parallel))]

end Overrides

end Scaffold
