import RouteEngine.Json.Basic

/-!
The settings of an engine, their defaults, and their form as a JSON object.
-/

namespace RouteEngine

/-- What a full URL is made with when a call does not say otherwise. -/
structure UrlDefaults where
  host : Option String := none
  protocol : Option String := none
  port : Option Nat := none
  scriptName : Option String := none
  deriving Repr, Inhabited, DecidableEq

structure Settings where
  debug : Bool := true
  /-- Labels of a top-level domain: 1 for `example.com`, 2 for `example.co.uk`. -/
  tldLength : UInt64 := 1
  /-- Routes get an optional format unless they say otherwise. -/
  appendFormat : Bool := true
  /-- The response header that hands a request on. -/
  cascadeHeader : String := "x-cascade"
  urlDefaults : UrlDefaults := {}
  /-- Paths may be filled from a template made beforehand. -/
  optimizeGeneration : Bool := true
  logLevel : String := "info"
  /-- Settings that the engine has no use for, with ascending keys. -/
  extra : List (String × Json) := []
  deriving Repr, Inhabited

def UrlDefaults.toJson (d : UrlDefaults) : Json :=
  .object [
    ("host", Json.ofOption .string d.host),
    ("port", Json.ofOption Json.ofNat d.port),
    ("protocol", Json.ofOption .string d.protocol),
    ("script_name", Json.ofOption .string d.scriptName)]

/-- Every setting by its name, in ascending order. -/
def Settings.toJson (s : Settings) : Json :=
  .object [
    ("append_format", .bool s.appendFormat),
    ("cascade_header", .string s.cascadeHeader),
    ("debug", .bool s.debug),
    ("default_url_options", s.urlDefaults.toJson),
    ("extra", .object s.extra),
    ("log_level", .string s.logLevel),
    ("optimize_generation", .bool s.optimizeGeneration),
    ("tld_length", Json.ofNat s.tldLength.toNat)]

end RouteEngine
