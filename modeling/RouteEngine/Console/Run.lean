import RouteEngine.Console.Check
import RouteEngine.Console.Help
import RouteEngine.Console.Listing
import RouteEngine.Console.Registry
import RouteEngine.Console.Report
import RouteEngine.Console.Values
import RouteEngine.File.Entries
import RouteEngine.Log.Filter
import RouteEngine.Settings.Environment
import RouteEngine.Table.Journal

/-!
Carrying out a command line. Files and the environment are given as values, and so is what is
printed: the whole run is a function of its inputs. Route files hold no predicates, so there is
no state to pass along.
-/

namespace RouteEngine.Console

/-- What a run prints, and the code with which it ends. -/
structure RunResult where
  exitCode : Nat
  output : String := ""
  errorOutput : String := ""
  log : List LogLine := []
  deriving Repr

/-- The text of a file, or why it cannot be read. -/
abbrev Files := String → Except String String

/-- What a command prints, or its error, with the lines of its log. -/
structure CommandResult where
  result : Except RoutingError String
  log : List LogLine := []

def loadingLine : LogLine :=
  { level := .debug, source := "switchyard_cli::command", message := "Loading route file" }

def checkLine (level : LogLevel) (message : String) : LogLine :=
  { level, source := "switchyard_cli::commands::check", message }

def generatedLine : LogLine :=
  { level := .debug, source := "switchyard_http::routing::generator", message := "generated"
    task := some "url_for" }

def readEntries (files : Files) (path : String) : Except RoutingError (Entries Unit) :=
  match files path with
  | .error reason => .error (.configuration (.routeFileUnreadable path reason))
  | .ok source => RouteFile.read path source

/-- Reads the route file, draws it and goes on with the table. -/
def withTable (files : Files) (settings : Settings) (path : String)
    (k : Table Unit → CommandResult) : CommandResult :=
  match readEntries files path with
  | .error e => ⟨.error e, [loadingLine]⟩
  | .ok entries =>
    let log := loadingLine :: Table.drawingLines entries settings
    match Table.draw entries settings with
    | .error e => ⟨.error e, log⟩
    | .ok t =>
      let r := k t
      { r with log := log ++ r.log }

def list (a : Arguments) (t : Table Unit) : CommandResult :=
  ⟨.ok (Listing.text (Listing.rows t (a.value? "grep")) (a.has "json")), []⟩

def report (r : Except RoutingError Request) (t : Table Unit) : CommandResult :=
  match r with
  | .error e => ⟨.error e, []⟩
  | .ok r => ⟨(Report.recognition t r ()).1.map (· ++ "\n"), t.recognitionLines r ()⟩

def linkOptions (a : Arguments) : LinkOptions where
  onlyPath := a.has "only-path"
  host := a.value? "host"
  protocol := a.value? "protocol"
  port := (a.value? "port").bind Arguments.portNumber?
  anchor := a.value? "anchor"
  trailingSlash := a.has "trailing-slash"

/-- Without a name every operand is a value. -/
def linkParts (a : Arguments) : Option String × List String :=
  if a.has "unnamed" then (none, a.operands) else (a.operands.head?, a.operands.tail)

/-- A path was found, whatever became of the URL around it. -/
def foundPath (l : Linker Unit) (name : Option String) (values : List String) : Bool :=
  (CommandValues.link l name values .pathOnly).toOption.isSome

def link (settings : Settings) (a : Arguments) (t : Table Unit) : CommandResult :=
  let l := Linker.ofTable t settings
  let (name, values) := linkParts a
  ⟨(CommandValues.link l name values (linkOptions a)).map (· ++ "\n"),
    if foundPath l name values then [generatedLine] else []⟩

def countText (findings : List (Finding Unit)) : String :=
  let failures := (findings.filter fun f => f.level.isFailure).length
  "Route check identified " ++ toString findings.length ++ " issue(s) (" ++ toString failures ++
    " error(s), " ++ toString (findings.length - failures) ++ " warning(s))"

def checkLines (findings : List (Finding Unit)) : List LogLine :=
  if findings.isEmpty then [checkLine .info "Route check identified no issues"]
  else findings.map (fun f => checkLine .warn f.line) ++ [checkLine .info (countText findings)]

def check (files : Files) (settings : Settings) (path : String) : CommandResult :=
  let entries := readEntries files path
  let drawing :=
    match entries with
    | .ok es => Table.drawingLines es settings
    | .error _ => []
  let findings := Check.run entries settings
  let failures := (findings.filter fun f => f.level.isFailure).length
  { result :=
      if failures = 0 then .ok "" else .error (.configuration (.checkFailed failures path))
    log := loadingLine :: drawing ++ checkLines findings }

def execute (files : Files) (settings : Settings) (i : Invocation) : CommandResult :=
  let table := withTable files settings i.routeFile
  match i.command, i.arguments.operands with
  | "routes", _ => table (list i.arguments)
  | "recognize", method :: target :: _ =>
    match CommandValues.pairs (i.arguments.values "attr") with
    | .error e => ⟨.error e, []⟩
    | .ok attributes => table (report (Report.request method target attributes))
  | "generate", _ => table (link settings i.arguments)
  | "check", _ => check files settings i.routeFile
  | name, _ => ⟨.error (.configuration (.custom ("Unknown command: " ++ name))), []⟩

def indent (text : String) : String :=
  String.ofList (text.toList.flatMap fun c => if c = '\n' then "\n    ".toList else [c])

/-- An error and its cause, which is indented below it. -/
def errorText (message : String) (cause : Option String) : String :=
  let below := match cause with
    | some c => "\n\nCaused by:\n    " ++ indent c
    | none => ""
  "Error: " ++ message ++ below ++ "\n"

def loadSettings (files : Files) (environment : List (String × String)) (path : Option String) :
    Except (String × RoutingError) Settings :=
  match path with
  | none => .ok (Settings.withEnvironment {} environment)
  | some path =>
    let settings : Except RoutingError Settings :=
      match files path with
      | .error reason => .error (.configuration (.settingsUnreadable path reason))
      | .ok source => Settings.parse (.ofPath path) source
    match settings with
    | .ok s => .ok (s.withEnvironment environment)
    | .error e => .error ("loading settings from " ++ path, e)

/-- The files that a command line may need. -/
def filesOf (words : List String) : List String :=
  match Registry.builtIn.parse words with
  | .ok i => i.routeFile :: i.settingsFile.toList
  | .error _ => []

/-- Carries out a command line without the name of the program. -/
def run (files : Files) (environment : List (String × String)) (words : List String) : RunResult :=
  match Registry.builtIn.parse words with
  | .error .fault => { exitCode := 2, errorOutput := "error: invalid arguments\n" }
  | .error (.help command) => { exitCode := 0, output := Help.text .builtIn command }
  | .ok i =>
    match loadSettings files environment i.settingsFile with
    | .error (context, e) => { exitCode := 1, errorOutput := errorText context (some e.message) }
    | .ok settings =>
      let r := execute files settings i
      let filter := LogFilter.ofSetting settings.logLevel
      let log := r.log.filter filter.shows
      match r.result with
      | .ok output => { exitCode := 0, output, log }
      | .error e => { exitCode := 1, errorOutput := errorText e.message e.cause?, log }

end RouteEngine.Console
