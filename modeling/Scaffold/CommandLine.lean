import Scaffold.Config.Extraction
import Scaffold.Path
import Scaffold.Report.Rendering

namespace Scaffold

inductive Flag where
  | project
  | config
  | root
  | exclude
  | base
  | namesp
  | testDirectory
  | methodFormat
  | template
  | dryRun
  | parallel
  | format
  | quiet
  | verbose
  | help
  | version
  deriving DecidableEq, Repr

structure Arguments where
  project : Option Path := none
  config : Option Path := none
  roots : List String := []
  exclude : List String := []
  base : Option String := none
  namesp : Option String := none
  testDirectory : Option String := none
  methodFormat : Option MethodFormat := none
  template : Option String := none
  dryRun : Bool := false
  parallel : Bool := false
  format : SummaryFormat := .table
  quiet : Bool := false
  verbose : Bool := false
  deriving DecidableEq, Repr

/-- Why the program does not run with its arguments. -/
inductive ArgumentError where
  | unknownArgument
  | invalidValue
  | conflict
  | tooManyValues
  | help
  | version
  deriving DecidableEq, Repr

/-- The exit status: to be asked for help or the version is no failure. -/
def ArgumentError.exitStatus : ArgumentError → Nat
  | help | version => 0
  | _ => 2

namespace Flag

def ofLong? : String → Option Flag
  | "project" => some project
  | "config" => some config
  | "root" => some root
  | "exclude" => some exclude
  | "base" => some base
  | "namespace" => some namesp
  | "test-dir" => some testDirectory
  | "method-format" => some methodFormat
  | "template" => some template
  | "dry-run" => some dryRun
  | "parallel" => some parallel
  | "format" => some format
  | "quiet" => some quiet
  | "verbose" => some verbose
  | "help" => some help
  | "version" => some version
  | _ => none

def ofShort? : Char → Option Flag
  | 'p' => some project
  | 'c' => some config
  | 'f' => some format
  | 'q' => some quiet
  | 'v' => some verbose
  | 'h' => some help
  | 'V' => some version
  | _ => none

def takesValue : Flag → Bool
  | dryRun | parallel | quiet | verbose | help | version => false
  | _ => true

def isRepeatable : Flag → Bool
  | root | exclude => true
  | _ => false

end Flag

def SummaryFormat.ofWord? : String → Option SummaryFormat
  | "table" => some .table
  | "json" => some .json
  | _ => none

namespace Arguments

/-- A path, which has to be there. -/
def path? (value : String) : Except ArgumentError Path :=
  if value.isEmpty then .error .invalidValue else .ok ⟨value⟩

/-- One of the words that a function knows. -/
def choice (known : String → Option α) (value : String) : Except ArgumentError α :=
  match known value with
  | some a => .ok a
  | none => .error .invalidValue

def setValue (a : Arguments) (flag : Flag) (value : String) : Except ArgumentError Arguments :=
  match flag with
  | .project => do return { a with project := some (← path? value) }
  | .config => do return { a with config := some (← path? value) }
  | .root => .ok { a with roots := a.roots ++ [value] }
  | .exclude => .ok { a with exclude := a.exclude ++ [value] }
  | .base => .ok { a with base := some value }
  | .namesp => .ok { a with namesp := some value }
  | .testDirectory => .ok { a with testDirectory := some value }
  | .methodFormat => do
    return { a with methodFormat := some (← choice MethodFormat.ofWord? value) }
  | .template => .ok { a with template := some value }
  | .format => do return { a with format := ← choice SummaryFormat.ofWord? value }
  | _ => .ok a

def setSwitch (a : Arguments) (flag : Flag) : Except ArgumentError Arguments :=
  match flag with
  | .dryRun => .ok { a with dryRun := true }
  | .parallel => .ok { a with parallel := true }
  | .quiet => .ok { a with quiet := true }
  | .verbose => .ok { a with verbose := true }
  | .help => .error .help
  | .version => .error .version
  | _ => .ok a

/-- The settings that the arguments give for this run. -/
def overrides (a : Arguments) : Overrides where
  base := a.base
  roots := if a.roots.isEmpty then none else some a.roots
  exclude := if a.exclude.isEmpty then none else some a.exclude
  namesp := a.namesp
  directory := a.testDirectory
  template := a.template
  methodFormat := a.methodFormat
  dryRun := if a.dryRun then some true else none
  parallel := if a.parallel then some true else none

end Arguments

namespace CommandLine

/-- An option whose value has not been looked at. -/
structure Pending where
  flag : Flag
  value : Option String

/-- How far the arguments are read. -/
structure State where
  arguments : Arguments := {}
  /-- The options taken up so far. -/
  seen : List Flag := []
  pending : Option Pending := none

namespace State

/-- Notes that an option is taken up, which most options can be only once. -/
def claim (s : State) (flag : Flag) : Except ArgumentError State :=
  if s.seen.contains flag && !flag.isRepeatable then .error .conflict
  else .ok { s with seen := flag :: s.seen }

def give (s : State) (flag : Flag) (value : String) : Except ArgumentError State := do
  let s ← s.claim flag
  return { s with arguments := ← s.arguments.setValue flag value }

/-- Looks at the value that is waiting. -/
def settle (s : State) : Except ArgumentError State :=
  match s.pending with
  | none => .ok s
  | some ⟨_, none⟩ => .error .invalidValue
  | some ⟨flag, some value⟩ => { s with pending := none }.give flag value

/-- Takes up an option that has been recognized, with the value in the same argument. -/
def accept (s : State) (flag : Flag) (attached : Option String) : Except ArgumentError State :=
  if flag.takesValue then do
    let s ← s.settle
    match attached with
    | some value => s.give flag value
    | none => return { s with pending := some ⟨flag, none⟩ }
  else if attached.isSome then .error .tooManyValues
  else do
    let s ← (← s.settle).claim flag
    return { s with arguments := ← s.arguments.setSwitch flag }

/-- Takes up an argument that is no option: the value of the option before it. -/
def acceptValue (s : State) (value : String) : Except ArgumentError State :=
  match s.pending with
  | some ⟨flag, none⟩ => .ok { s with pending := some ⟨flag, some value⟩ }
  | _ => .error .unknownArgument

def acceptLong (s : State) (cs : List Char) : Except ArgumentError State :=
  let name := cs.takeWhile (· != '=')
  let attached := match cs.dropWhile (· != '=') with
    | [] => none
    | _ :: value => some (String.ofList value)
  match Flag.ofLong? (.ofList name) with
  | some flag => s.accept flag attached
  | none => .error .unknownArgument

/-- Takes up the short options behind one dash. The first one that takes a value has the rest of
the argument as its value. -/
def acceptShort (s : State) : List Char → Except ArgumentError State
  | [] => .ok s
  | c :: cs =>
    match Flag.ofShort? c with
    | none => .error .unknownArgument
    | some flag =>
      if flag.takesValue then
        match cs with
        | [] => s.accept flag none
        | '=' :: value => s.accept flag (some (.ofList value))
        | value => s.accept flag (some (.ofList value))
      else do
        let s ← s.accept flag none
        s.acceptShort cs

def step (s : State) (argument : String) : Except ArgumentError State :=
  match argument.toList with
  | '-' :: '-' :: cs => s.acceptLong cs
  | ['-'] => s.acceptValue argument
  | '-' :: cs => s.acceptShort cs
  | _ => s.acceptValue argument

end State

/-- Reads arguments up to two dashes, behind which nothing may follow. -/
def read (s : State) : List String → Except ArgumentError State
  | [] => s.settle
  | "--" :: rest => if rest.isEmpty then s.settle else .error .unknownArgument
  | argument :: rest => do
    let s ← s.step argument
    read s rest

def parse (arguments : List String) : Except ArgumentError Arguments := do
  let s ← read {} arguments
  return s.arguments

end CommandLine

end Scaffold
