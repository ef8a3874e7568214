import RouteEngine.Request.Method
import RouteEngine.Settings.Basic
import RouteEngine.Text.Numeral

/-!
Settings from environment variables. A variable that cannot be read as its setting is ignored.
-/

namespace RouteEngine.Settings

def flag? (value : String) : Option Bool :=
  let v := lowerAscii value
  if ["1", "true", "yes", "on"].contains v then some true
  else if ["0", "false", "no", "off"].contains v then some false
  else none

/-- An empty value takes the setting away. -/
def unlessEmpty (value : String) : Option String := if value = "" then none else some value

/-- The settings with one variable applied, if it can be read. -/
def assign (s : Settings) (name value : String) : Option Settings :=
  match name with
  | "SWITCHYARD_DEBUG" => (flag? value).map fun b => { s with debug := b }
  | "SWITCHYARD_LOG_LEVEL" => some { s with logLevel := value }
  | "SWITCHYARD_TLD_LENGTH" => (Text.count? value).map fun n => { s with tldLength := .ofNat n }
  | "SWITCHYARD_APPEND_FORMAT" => (flag? value).map fun b => { s with appendFormat := b }
  | "SWITCHYARD_OPTIMIZE_GENERATION" =>
    (flag? value).map fun b => { s with optimizeGeneration := b }
  | "SWITCHYARD_DEFAULT_HOST" =>
    some { s with urlDefaults := { s.urlDefaults with host := unlessEmpty value } }
  | "SWITCHYARD_DEFAULT_PROTOCOL" =>
    some { s with urlDefaults := { s.urlDefaults with protocol := unlessEmpty value } }
  | "SWITCHYARD_DEFAULT_PORT" =>
    (Text.port? value).map fun p =>
      { s with urlDefaults := { s.urlDefaults with port := some p } }
  | _ => none

/-- The settings with every variable applied that can be read. -/
def withEnvironment (s : Settings) (assignments : List (String × String)) : Settings :=
  assignments.foldl (fun s v => (s.assign v.1 v.2).getD s) s

end RouteEngine.Settings
