import Scaffold.CommandLine
import Scaffold.Config.Layers
import Scaffold.Generator

namespace Scaffold

inductive ProgramError where
  | invalidProject (project : Path)
  | config (project : Path) (cause : ConfigError)
  | template (cause : TemplateError)
  deriving DecidableEq, Repr

def ProgramError.message : ProgramError → String
  | invalidProject project =>
    "invalid --project '" ++ project.text ++ "': directory does not exist"
  | config project cause =>
    "failed to load configuration for " ++ project.text ++ ": " ++ cause.message
  | template cause => "cannot use the skeleton test class: " ++ cause.chain

structure ProgramResult where
  disk : Disk
  exitStatus : Nat
  output : String := ""
  error : Option ProgramError := none
  events : List LogEvent := []

namespace Program

def versionLine : String := "tsmith 0.1.0\n"

def helpText : String := "Generate PHPUnit test stubs for the public methods of PHP classes\n"

/-- The exit status when the variables of the environment cannot be used. -/
def abortStatus : Nat := 101

/-- Narrower terminals do not count. -/
def leastTerminalWidth : Nat := 40

/-- The width of the terminal, if the environment tells it. -/
def terminalWidth? (env : Environment) : Option Nat :=
  (env.get? "COLUMNS").bind fun s =>
    let digits := match s.toList with
      | '+' :: cs => cs
      | cs => cs
    if Literal.isNumber digits then
      (Toml.ofDigits? 10 digits).filter fun n => leastTerminalWidth ≤ n && n < UInt64.size
    else none

/-- The directory of the project: the one that was asked for, else the working directory. -/
def projectRoot (d : Disk) (a : Arguments) : Except ProgramError Path :=
  match a.project with
  | none => .ok (Disk.pathOf d.workingDirectory)
  | some project => if d.isDirectory project then .ok project else .error (.invalidProject project)

/-- The configuration of a project, files of variables and arguments included. -/
def loadConfig (d : Disk) (env : Environment) (a : Arguments) (project : Path) :
    Except ProgramError Config :=
  match Dotenv.load d project env with
  | .error cause => .error (.config project (.environment cause))
  | .ok environment =>
    let place : ConfigPlace := { disk := d, environment, project, configFile := a.config }
    match Config.load place a.overrides with
    | .ok c => .ok c
    | .error cause => .error (.config project cause)

def prepare (d : Disk) (env : Environment) (a : Arguments) : Except ProgramError Generator := do
  let project ← projectRoot d a
  let config ← loadConfig d env a project
  match Generator.load d (Settings.ofConfig config project) with
  | .ok g => .ok g
  | .error cause => .error (.template cause)

/-- The event at the end of a dry run. -/
def dryRunEvents (g : Generator) : List LogEvent :=
  if g.settings.dryRun then [⟨.warn, "dry run: no files were written", []⟩] else []

/-- Runs the program with arguments that could be read. -/
def runWith (d : Disk) (env : Environment) (a : Arguments) : ProgramResult :=
  match prepare d env a with
  | .error (.config _ (.environment _)) => { disk := d, exitStatus := abortStatus }
  | .error e => { disk := d, exitStatus := 1, error := some e }
  | .ok g =>
    let r := g.run d
    { disk := r.disk
      exitStatus := 0
      output := r.summary.render a.format (terminalWidth? env) ++ "\n"
      events := r.events ++ dryRunEvents g }

/-- The text for those who ask for help or the version. -/
def answer : ArgumentError → String
  | .help => helpText
  | .version => versionLine
  | _ => ""

def run (d : Disk) (env : Environment) (arguments : List String) : ProgramResult :=
  match CommandLine.parse arguments with
  | .error e => { disk := d, exitStatus := e.exitStatus, output := answer e }
  | .ok a => runWith d env a

end Program

end Scaffold
