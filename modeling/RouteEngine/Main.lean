import RouteEngine.Console.Run

/-!
The command line. Everything it may need is read first, the run itself is a function of that, and
what the run prints is written last.
-/

open RouteEngine

def readFile (path : String) : IO (String × Except String String) := do
  try
    return (path, .ok (← IO.FS.readFile path))
  catch e =>
    return (path, .error (toString e))

/-- The variables of the environment that are settings. -/
def variableNames : List String :=
  ["DEBUG", "LOG_LEVEL", "TLD_LENGTH", "APPEND_FORMAT", "OPTIMIZE_GENERATION", "DEFAULT_HOST",
    "DEFAULT_PROTOCOL", "DEFAULT_PORT"].map ("SWITCHYARD_" ++ ·)

def readVariable (name : String) : IO (Option (String × String)) := do
  return (← IO.getEnv name).map fun value => (name, value)

def logText (l : LogLine) : String :=
  (Json.object [("level", .string l.level.name),
    ("fields", .object [("message", .string l.message)]), ("target", .string l.source)]).compact

def main (words : List String) : IO UInt32 := do
  let files ← (Console.filesOf words).mapM readFile
  let environment ← variableNames.filterMapM readVariable
  let lookup := fun path => (files.lookup path).getD (.error "no such file")
  let r := Console.run lookup environment words
  for l in r.log do
    IO.println (logText l)
  IO.print r.output
  IO.eprint r.errorOutput
  return UInt32.ofNat r.exitCode
