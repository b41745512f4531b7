import Scaffold.Config.Basic
import Scaffold.Plan
import Scaffold.Report.Summary
import Scaffold.Text.Quoted
import Scaffold.Tree.Printer

namespace Scaffold

/-- The settings of a run with all paths resolved. -/
structure Settings where
  roots : List Path
  exclude : List String
  layout : TargetLayout
  template : Path
  methodFormat : MethodFormat
  dryRun : Bool
  parallel : Bool
  deriving DecidableEq, Repr

def Settings.ofConfig (c : Config) (project : Path) : Settings where
  roots := c.source.roots.map fun r => project.join ⟨r⟩
  exclude := c.source.exclude
  layout :=
    { sourceBase := project.join ⟨c.source.base⟩
      namespaceRoot := c.target.namesp
      testDirectory := project.join ⟨c.target.directory⟩
      extension := c.source.extension }
  template := project.join ⟨c.target.template⟩
  methodFormat := c.target.methodFormat
  dryRun := c.general.dryRun
  parallel := c.general.parallel

inductive Outcome where
  | created
  | updated
  | satisfied
  deriving DecidableEq, Repr

inductive TargetError where
  | file (fault : FileFault)
  | merge (error : MergeError)
  | unwritable (path : Path) (cause : OsError)
  deriving DecidableEq, Repr

def TargetError.message : TargetError → String
  | .file fault => fault.message
  | .merge error => error.message
  | .unwritable path cause => "failed to write " ++ path.text ++ ": " ++ cause.message

def TargetError.level : TargetError → Level
  | .unwritable _ _ => .error
  | _ => .warn

/-- A test class ready to be written, with the tests that are new in it. -/
structure Draft where
  outcome : Outcome
  added : List String
  text : String
  deriving DecidableEq, Repr

structure Generator where
  settings : Settings
  template : Template

structure Processed where
  disk : Disk
  events : List LogEvent
  result : Except TargetError Outcome
  /-- The number of tests that were added. -/
  added : Nat

structure Run where
  disk : Disk
  summary : Summary
  events : List LogEvent
  /-- The targets that were worked on, with what became of them. -/
  outcomes : List (TestTarget × Except TargetError Outcome)

namespace Generator

def load (d : Disk) (settings : Settings) : Except TemplateError Generator :=
  match Template.load d settings.template with
  | .ok template => .ok ⟨settings, template⟩
  | .error e => .error e

def scan (g : Generator) (d : Disk) : List ScannedFile :=
  Scaffold.scan d g.settings.roots g.settings.layout.extension g.settings.exclude

def scanEvents (g : Generator) (d : Disk) : List LogEvent :=
  Scaffold.scanEvents d g.settings.roots g.settings.layout.extension g.settings.exclude

/-- The declarations in a source file; a file that cannot be read has none. -/
def declarationsIn (d : Disk) (f : ScannedFile) : List Declaration :=
  match d.parse f.path with
  | .ok t => t.declarations
  | .error _ => []

def fileEvent (d : Disk) (f : ScannedFile) : LogEvent :=
  match d.parse f.path with
  | .ok t =>
    ⟨.debug, "parsed", [("path", .text f.path.text), ("classes", .count t.declarations.length)]⟩
  | .error fault =>
    ⟨.warn, "skipping unparsable file",
      [("path", .text f.path.text), ("error", .text fault.message)]⟩

def targets (g : Generator) (d : Disk) (files : List ScannedFile) : List TestTarget :=
  files.flatMap fun f => (declarationsIn d f).map (g.settings.layout.resolve f)

def collisionEvent (t : TestTarget) : LogEvent :=
  ⟨.warn, "naming collision: several declarations map to this test file; skipping",
    [("path", .text t.path.text), ("source", .text t.sourcePath.text),
      ("class", .text t.declaration.qualifiedName)]⟩

def planFor (g : Generator) (d : Disk) (t : TestTarget) : Except TargetError TestPlan :=
  match plan d t g.template g.settings.methodFormat with
  | .ok p => .ok p
  | .error fault => .error (.file fault)

/-- Merges the missing tests of a plan and prints the result. -/
def draft (t : TestTarget) (p : TestPlan) : Except TargetError Draft :=
  match p.tree.merge t.namesp t.className p.missing with
  | .ok merged =>
    .ok ⟨if p.isExisting then .updated else .created, p.missing, (merged.print? p.tree).getD ""⟩
  | .error e => .error (.merge e)

def mergeEvents (t : TestTarget) (p : TestPlan) : List LogEvent :=
  if (p.tree.targetClass t.className).isSome && !p.tree.declaresNamespace then
    [⟨.debug, "merge source declares no namespace; keeping none",
      [("origin", .text p.tree.origin)]⟩]
  else []

/-- The event of writing a draft, or of leaving it unwritten in a dry run. -/
def draftEvent (g : Generator) (t : TestTarget) (f : Draft) : LogEvent :=
  if g.settings.dryRun then
    ⟨.info, "dry run: would write test class",
      [("path", .text t.path.text), ("methods", .text (Text.quotedList f.added))]⟩
  else
    ⟨.info, if f.outcome == .created then "created" else "updated",
      [("path", .text t.path.text), ("added", .count f.added.length)]⟩

/-- Writes a draft, unless in a dry run. -/
def commit (g : Generator) (d : Disk) (t : TestTarget) (f : Draft) :
    Disk × Except TargetError Unit :=
  if g.settings.dryRun then (d, .ok ())
  else match d.save t.path f.text with
    | (d', .ok ()) => (d', .ok ())
    | (d', .error cause) => (d', .error (.unwritable t.path cause))

def process (g : Generator) (d : Disk) (t : TestTarget) : Processed :=
  match g.planFor d t with
  | .error e => ⟨d, [], .error e, 0⟩
  | .ok p =>
    if p.isSatisfied then
      ⟨d, [⟨.info, "skipped, test class up to date", [("path", .text t.path.text)]⟩],
        .ok .satisfied, 0⟩
    else match draft t p with
      | .error e => ⟨d, mergeEvents t p, .error e, 0⟩
      | .ok f =>
        match g.commit d t f with
        | (d', .ok ()) => ⟨d', mergeEvents t p ++ [g.draftEvent t f], .ok f.outcome, f.added.length⟩
        | (d', .error e) => ⟨d', mergeEvents t p, .error e, 0⟩

def failureEvents (t : TestTarget) : Except TargetError Outcome → List LogEvent
  | .ok _ => []
  | .error e =>
    [⟨e.level, "skipping class",
      [("class", .text t.declaration.qualifiedName), ("error", .text e.message)]⟩]

/-- Adds what became of one target to the counts. -/
def count (s : Summary) (p : Processed) : Summary :=
  match p.result with
  | .ok .created | .ok .updated => s.classUpdated p.added.toUInt64
  | _ => s

def advance (g : Generator) (r : Run) (t : TestTarget) : Run :=
  let p := g.process r.disk t
  { disk := p.disk
    summary := count r.summary p
    events := r.events ++ p.events ++ failureEvents t p.result
    outcomes := r.outcomes ++ [(t, p.result)] }

def isSkipped (o : TestTarget × Except TargetError Outcome) : Bool :=
  match o.2 with
  | .ok _ => false
  | .error _ => true

def wasSatisfied (o : TestTarget × Except TargetError Outcome) : Bool :=
  match o.2 with
  | .ok .satisfied => true
  | _ => false

def readSummary (d : Disk) (files : List ScannedFile) : Summary :=
  files.foldl (fun s f => s.fileScanned.addClasses (declarationsIn d f).length.toUInt64) {}

/-- Makes the tests for some source files. -/
def generate (g : Generator) (d : Disk) (files : List ScannedFile) : Run :=
  let found := g.targets d files
  let start : Run :=
    { disk := d
      summary := readSummary d files
      events := files.map (fileEvent d) ++ (collisions found).map collisionEvent
      outcomes := [] }
  -- Of several targets with one path none is kept, not even the first.
  let kept := dropCollisions found
  let done := kept.foldl g.advance start
  { done with
    events := done.events ++ [⟨.debug, "generation finished",
      [("targets", .count kept.length), ("skipped", .count (done.outcomes.countP isSkipped)),
        ("satisfied", .count (done.outcomes.countP wasSatisfied))]⟩] }

def run (g : Generator) (d : Disk) : Run :=
  let r := g.generate d (g.scan d)
  { r with events := g.scanEvents d ++ r.events }

end Generator

end Scaffold
