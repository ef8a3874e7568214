/-!
Lines of a log: how grave they are, which part of the engine they come from, and the task during
which they were written.
-/

namespace RouteEngine

inductive LogLevel
  | error
  | warn
  | info
  | debug
  | trace
  deriving DecidableEq, Repr

namespace LogLevel

def name : LogLevel → String
  | error => "ERROR"
  | warn => "WARN"
  | info => "INFO"
  | debug => "DEBUG"
  | trace => "TRACE"

/-- From 1 for errors to 5 for traces. -/
def rank : LogLevel → Nat
  | error => 1
  | warn => 2
  | info => 3
  | debug => 4
  | trace => 5

end LogLevel

structure LogLine where
  level : LogLevel
  source : String
  message : String
  task : Option String := none
  deriving DecidableEq, Repr

end RouteEngine
