namespace Scaffold

inductive Level where
  | debug
  | info
  | warn
  | error
  deriving DecidableEq, Repr

inductive LogValue where
  | text (s : String)
  | count (n : Nat)
  deriving DecidableEq, Repr

structure LogEvent where
  level : Level
  message : String
  fields : List (String × LogValue)
  deriving DecidableEq, Repr

def Level.word : Level → String
  | .debug => "debug"
  | .info => "info"
  | .warn => "warn"
  | .error => "error"

def LogValue.shown : LogValue → String
  | .text s => s
  | .count n => toString n

/-- An event on one line. -/
def LogEvent.line (e : LogEvent) : String :=
  " ".intercalate (e.level.word :: e.message :: e.fields.map fun (k, v) => k ++ "=" ++ v.shown)

end Scaffold
