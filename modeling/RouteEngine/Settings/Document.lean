import RouteEngine.Error
import RouteEngine.Json.Parser
import RouteEngine.Settings.Decode
import RouteEngine.Settings.Overlay
import RouteEngine.Text.Split
import RouteEngine.Toml.Parser

/-!
Settings documents, in JSON when the file name ends so and in TOML otherwise. A document lists
what it changes and leaves every other setting at its default.
-/

namespace RouteEngine

inductive DocumentFormat
  | toml
  | json
  deriving DecidableEq, Repr

/-- The last part of a path, less slashes and single dots at its end. -/
def fileName? (path : String) : Option (List Char) :=
  let parts := (Text.pieces '/' path.toList).filter fun p => p ≠ [] ∧ p ≠ ['.']
  match parts.getLast? with
  | some name => if name = ['.', '.'] then none else some name
  | none => none

/-- What stands behind the last dot of the file name, unless the name starts with that dot. -/
def fileExtension? (path : String) : Option String :=
  match (fileName? path).bind (Text.splitLast '.') with
  | some ([], _) => none
  | some (_, e) => some (String.ofList e)
  | none => none

def DocumentFormat.ofPath (path : String) : DocumentFormat :=
  if (fileExtension? path).any fun e => e.toList.map Char.toLower = "json".toList then .json
  else .toml

namespace Settings

def parseDocument (format : DocumentFormat) (source : String) : Except ConfigurationFault Json :=
  match format with
  | .toml =>
    match Toml.parse? source with
    | some j => .ok j
    | none => .error (.settingsTomlSyntax "")
  | .json =>
    match Json.parse? source with
    | some j => .ok j.canonical
    | none => .error (.settingsJsonSyntax "")

/-- The default settings with a document laid over them. -/
def ofDocument (document : Json) : Except ConfigurationFault Settings :=
  match ofJson? (Json.overlay ({} : Settings).toJson document) with
  | some s => .ok s
  | none => .error (.settingsShape "")

def parse (format : DocumentFormat) (source : String) : Except RoutingError Settings :=
  Except.mapError .configuration do ofDocument (← parseDocument format source)

end Settings

end RouteEngine
