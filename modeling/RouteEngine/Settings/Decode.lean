import RouteEngine.Settings.Basic
import RouteEngine.Text.Numeral

/-!
Settings from a JSON value. An object gives them by name and may have further fields; a list
gives all of them in a fixed order.
-/

namespace RouteEngine

namespace Json

def bool? : Json → Option Bool
  | .bool b => some b
  | _ => none

def string? : Json → Option String
  | .string s => some s
  | _ => none

/-- A whole number from zero to `most`. -/
def natUpTo? (most : Nat) : Json → Option Nat
  | .number (.int i) => if 0 ≤ i ∧ i ≤ most then some i.toNat else none
  | _ => none

/-- A value, or none for `null`. -/
def nullable? {α : Type} (f : Json → Option α) : Json → Option (Option α)
  | .null => some none
  | j => (f j).map some

/-- A value that may be left out. -/
def optional? {α : Type} (f : Json → Option α) : Option Json → Option (Option α)
  | none => some none
  | some j => nullable? f j

def fields? : Json → Option (List (String × Json))
  | .object fields => some fields
  | _ => none

end Json

namespace UrlDefaults

def ofFields (host protocol port script : Option Json) : Option UrlDefaults := do
  let host ← Json.optional? Json.string? host
  let protocol ← Json.optional? Json.string? protocol
  let port ← Json.optional? (Json.natUpTo? Text.maxPort) port
  let scriptName ← Json.optional? Json.string? script
  return { host, protocol, port, scriptName }

def ofJson? : Json → Option UrlDefaults
  | .object fs =>
    ofFields (Dict.lookup "host" fs) (Dict.lookup "protocol" fs) (Dict.lookup "port" fs)
      (Dict.lookup "script_name" fs)
  | .array [host, protocol, port, script] =>
    ofFields (some host) (some protocol) (some port) (some script)
  | _ => none

end UrlDefaults

namespace Settings

def ofValues (debug tld append cascade urls optimize log extra : Json) : Option Settings := do
  let debug ← debug.bool?
  let tldLength := .ofNat (← tld.natUpTo? Text.maxCount)
  let appendFormat ← append.bool?
  let cascadeHeader ← cascade.string?
  let urlDefaults ← UrlDefaults.ofJson? urls
  let optimizeGeneration ← optimize.bool?
  let logLevel ← log.string?
  let extra ← extra.fields?
  return { debug, tldLength, appendFormat, cascadeHeader, urlDefaults, optimizeGeneration,
           logLevel, extra }

def ofJson? : Json → Option Settings
  | .object fs => do
    let debug ← Dict.lookup "debug" fs
    let tld ← Dict.lookup "tld_length" fs
    let append ← Dict.lookup "append_format" fs
    let cascade ← Dict.lookup "cascade_header" fs
    let urls ← Dict.lookup "default_url_options" fs
    let optimize ← Dict.lookup "optimize_generation" fs
    let log ← Dict.lookup "log_level" fs
    let extra ← Dict.lookup "extra" fs
    ofValues debug tld append cascade urls optimize log extra
  | .array [debug, tld, append, cascade, urls, optimize, log, extra] =>
    ofValues debug tld append cascade urls optimize log extra
  | _ => none

end Settings

end RouteEngine
