import Scaffold.Config.Dotenv
import Scaffold.Config.Extraction
import Scaffold.Toml.Parse

namespace Scaffold

inductive ConfigError where
  /-- The variables cannot be used, and the program gives up. -/
  | environment (cause : EnvironmentFault)
  | unreadable (path : Path)
  | fault (cause : SettingFault)
  | invalid (cause : InvalidValue)
  deriving DecidableEq, Repr

def ConfigError.message : ConfigError → String
  | environment cause => cause.message
  | unreadable path => "Configuration error: " ++ path.text ++ " is no TOML document"
  | fault (.wrongType key) => "Configuration error: wrong type for key " ++ ".".intercalate key
  | fault (.unknownChoice key) =>
    "Configuration error: unknown choice for key " ++ ".".intercalate key
  | invalid cause => cause.message

structure ConfigPlace where
  disk : Disk
  environment : Environment
  project : Path
  /-- A file to use instead of the project's own one. -/
  configFile : Option Path := none

namespace ConfigPlace

def projectFileName : Path := ⟨"testsmith.toml"⟩

def userDirectory? (env : Environment) : Option Path :=
  match (env.get? "XDG_CONFIG_HOME").filter fun s => Path.isAbsolute ⟨s⟩ with
  | some s => some ⟨s⟩
  | none => ((env.get? "HOME").filter (!·.isEmpty)).map fun s => Path.join ⟨s⟩ ⟨".config"⟩

def userFile? (p : ConfigPlace) : Option Path :=
  (userDirectory? p.environment).map fun d => (d.join ⟨"testsmith"⟩).join ⟨"config.toml"⟩

/-- The project's own file, or the one named instead of it. -/
def projectFile (p : ConfigPlace) : Path :=
  p.project.join (p.configFile.getD projectFileName)

/-- The file that a path leads to. A relative path is tried from the working directory and from the
directories above it. -/
def resolve? (p : ConfigPlace) (path : Path) : Option Path :=
  ((p.disk.ancestors).map (·.join path)).find? p.disk.isFile

/-- The settings in a file; a file that is not there has none. -/
def fileLayer (p : ConfigPlace) (path : Path) : Except ConfigError Value :=
  if (p.disk.lookUp? path).isNone then .ok (.table [])
  else match p.resolve? path with
    | none => .ok (.table [])
    | some file =>
      match (p.disk.readText file).toOption.bind Toml.parse? with
      | some v => .ok v
      | none => .error (.unreadable file)

/-- The layers below the settings of one run, the lowest first. -/
def layers (p : ConfigPlace) : Except ConfigError (List Value) := do
  let fromEnvironment ← match p.environment.settings with
    | .ok v => pure v
    | .error cause => .error (.environment cause)
  let user ← match p.userFile? with
    | some path => p.fileLayer path
    | none => pure (.table [])
  let project ← p.fileLayer p.projectFile
  return [Config.toValue {}, user, project, fromEnvironment]

end ConfigPlace

namespace Config

/-- The configuration that layers give, the later over the earlier ones. -/
def ofLayers (layers : List Value) : Except SettingFault Config :=
  ofValue (Value.mergeAll layers)

/-- The normal form of a configuration with which a run can work. -/
def accept (c : Config) : Except InvalidValue Config := do
  c.normalized.validate
  return c.normalized

/-- The configuration at a place, with the settings of one run over all others. -/
def load (p : ConfigPlace) (o : Overrides) : Except ConfigError Config := do
  let layers ← p.layers
  match ofLayers (layers ++ [o.toValue]) with
  | .error cause => .error (.fault cause)
  | .ok c =>
    match c.accept with
    | .error cause => .error (.invalid cause)
    | .ok c => .ok c

end Config

end Scaffold
