import RouteEngine.Console.Arguments
import RouteEngine.Names

/-!
The commands that a command line may name, and the two options that every command takes: the
route file and the settings file. Both may stand before the command or behind it, and the one
behind it counts.
-/

namespace RouteEngine

def defaultRouteFile : String := "routes.toml"

def routesOption : OptionSpec where
  name := "routes"
  short := some 'r'
  kind := .text
  help := "Route file to load (TOML, or JSON by extension)"
  default := some defaultRouteFile

def settingsOption : OptionSpec :=
  { name := "settings", kind := .text, help := "Settings file (TOML, or JSON by extension)" }

def sharedOptions : List OptionSpec := [routesOption, settingsOption]

def listingCommand : CommandSpec where
  name := "routes"
  help := "List all routes in match order"
  options := [
    { name := "grep", short := some 'g', kind := .text
      help := "Only list routes whose name, path or endpoint contains this text" },
    { name := "json", kind := .flag, help := "Print the listing as JSON" }]

def recognitionCommand : CommandSpec where
  name := "recognize"
  help := "Show the route and params a request is recognized as"
  options := [
    { name := "attr", kind := .many
      help := "Request attribute as key=value, for custom constraint keys" }]
  operands := [
    { name := "method", help := "HTTP method, e.g. GET" },
    { name := "url", help := "Path with optional query, or a full URL" }]

def linkCommand : CommandSpec where
  name := "generate"
  help := "Generate a URL from a route name and params"
  options := [
    { name := "unnamed", kind := .flag
      help := "Select the route by its defaults; every positional is a param" },
    { name := "only-path", kind := .flag, help := "Print only the path" },
    { name := "host", kind := .text, help := "Host to link to" },
    { name := "protocol", kind := .text, help := "Protocol, e.g. https" },
    { name := "port", kind := .port, help := "Port; standard ports are omitted" },
    { name := "anchor", kind := .text, help := "Fragment to append" },
    { name := "trailing-slash", kind := .flag, help := "Append a trailing slash to the path" }]
  operands := [
    { name := "name", help := "Route name", need := .unlessGiven "unnamed" },
    { name := "params", need := .never, many := true
      help := "Params as key=value, or positional values for the required keys" }]

def checkCommand : CommandSpec where
  name := "check"
  help := "Validate the route file"

structure Registry where
  commands : List CommandSpec := []

/-- A command line as it was read. -/
structure Invocation where
  command : String
  routeFile : String
  settingsFile : Option String
  arguments : Arguments
  deriving Repr

namespace Registry

def get? (r : Registry) (name : String) : Option CommandSpec :=
  r.commands.find? fun c => c.name = name

/-- Takes in a command in place of the one with its name. -/
def register (r : Registry) (c : CommandSpec) : Registry :=
  ⟨c :: r.commands.filter fun d => d.name ≠ c.name⟩

def builtIn : Registry :=
  [listingCommand, recognitionCommand, linkCommand, checkCommand].foldl register {}

def names (r : Registry) : List String := Names.ascending (r.commands.map (·.name))

def size (r : Registry) : Nat := r.commands.length

/-- The line before the name of a command. -/
def frontSpec : CommandSpec where
  name := "switchyard"
  help := "Inspect and exercise a switchyard route file"
  options := sharedOptions

def isCommand (r : Registry) (word : String) : Bool :=
  (r.get? word).isSome || (word = "help" && !r.commands.isEmpty)

/-- Help on one of the commands, or on all of them. -/
def helpStop (r : Registry) : List String → UsageStop
  | [] => .help none
  | [name] => if r.isCommand name then .help (some name) else .fault
  | _ => .fault

def withSharedOptions (c : CommandSpec) : CommandSpec :=
  { c with options := c.options ++ sharedOptions }

/-- Reads a command line without the name of the program. -/
def parse (r : Registry) (words : List String) : Except UsageStop Invocation := do
  let (front, command) ← Arguments.read frontSpec r.isCommand false {} words
  match command with
  | none => .error .fault
  | some (name, rest) =>
    match r.get? name with
    | none => .error (r.helpStop rest)
    | some spec =>
      let (own, _) ← (Arguments.read (withSharedOptions spec) (fun _ => false) false {} rest).mapError
        (UsageStop.within name)
      if !own.fills 0 spec.operands then .error .fault
      else
        let shared (option : String) := (own.value? option).or (front.value? option)
        return {
          command := name
          routeFile := (shared "routes").getD defaultRouteFile
          settingsFile := shared "settings"
          arguments := own }

end Registry

end RouteEngine
