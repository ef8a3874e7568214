import RouteEngine.Dict
import RouteEngine.Json.Printer
import RouteEngine.Pattern.Error
import RouteEngine.Text.Quoted

/-!
Everything that can go wrong, by cause, and how a message words it. Errors in declarations show
when a table is drawn, a bad path when a request is looked up, the others when a URL is generated
or a file is read.
-/

namespace RouteEngine

inductive GenerationFailure
  | unknownRoute
  | missingKeys
  | rejectedValues
  | noRouteMatches
  | missingHost
  deriving DecidableEq, Repr

/-- A URL that could not be generated, with all that took part in the attempt. -/
structure GenerationError where
  kind : GenerationFailure
  route : Option String := none
  params : Params := .empty
  missing : List String := []
  rejected : List String := []
  suggestion : Option String := none
  deriving DecidableEq, Repr

inductive ConstraintFault
  | invalidRegex (source : String) (e : Regex.SyntaxError)
  | unsupportedShape (key : String) (value : Json)
  | notPredicate (description : String)
  | custom (text : String)

inductive DeclarationFault
  | anchoredConstraint (source : String)
  | invalidRouteName (name : String)
  | routeNameInUse (name : String)
  | multipleRoots (earlier later : String)
  | colonInKey (key : String)
  | missingController
  | missingAction
  | controllerWithSlash (controller : String)
  | unsupportedController (controller : String)
  | custom (text : String)
  deriving DecidableEq, Repr

inductive RequestFault
  | undecodablePath (path : String)
  | custom (text : String)
  deriving DecidableEq, Repr

inductive ConfigurationFault
  | routeFileUnreadable (path reason : String)
  | routeFileSyntax (reason : String)
  | routeFileShape (reason : String)
  | settingsUnreadable (path reason : String)
  | settingsTomlSyntax (reason : String)
  | settingsJsonSyntax (reason : String)
  | settingsShape (reason : String)
  | routeMethod (method : String)
  | requestMethod (method : String)
  | notPair (value : String)
  | mixedParams
  | checkFailed (errors : Nat) (path : String)
  | custom (text : String)
  deriving DecidableEq, Repr

inductive RoutingError
  | pattern (e : PatternError)
  | constraint (fault : ConstraintFault)
  | declaration (fault : DeclarationFault)
  | badRequest (fault : RequestFault)
  | generation (e : GenerationError)
  | unfilteredParameters (keys : List String)
  | configuration (fault : ConfigurationFault)
  | io (text : String)

def commaList (xs : List String) : String := ", ".intercalate xs

def GenerationError.attempt (e : GenerationError) : String :=
  let shown := e.params.entries.map fun p => p.1 ++ ": " ++ Text.quoted p.2
  let for? :=
    match e.route with
    | some name => " for route '" ++ name ++ "'"
    | none => ""
  "No route matches \x7b" ++ commaList shown ++ "\x7d" ++ for?

def GenerationError.details (e : GenerationError) : String :=
  let missing :=
    if e.missing.isEmpty then "" else ", missing required keys: [" ++ commaList e.missing ++ "]"
  let rejected :=
    if e.rejected.isEmpty then ""
    else ", possible unmatched constraints: [" ++ commaList e.rejected ++ "]"
  let suggestion :=
    match e.suggestion with
    | some name => "\nDid you mean? " ++ name
    | none => ""
  missing ++ rejected ++ suggestion

def GenerationError.message (e : GenerationError) : String :=
  match e.kind with
  | .missingHost =>
    "Missing host to link to! Provide a host option or set default_url_options.host"
  | .unknownRoute => "No route named '" ++ e.route.getD "" ++ "'" ++ e.details
  | _ => e.attempt ++ e.details

def ConstraintFault.message : ConstraintFault → String
  | .invalidRegex source e => "invalid regex " ++ Text.quoted source ++ ": " ++ e.message
  | .unsupportedShape key value =>
    "constraint " ++ Text.quoted key ++ " must be a string, integer, boolean, array, or " ++
      "\x7b regex = \"...\" \x7d, got " ++ value.compact
  | .notPredicate d => "constraint " ++ d ++ " must respond to a predicate or matches capability"
  | .custom text => text

def DeclarationFault.message : DeclarationFault → String
  | .anchoredConstraint source =>
    "Regexp anchor characters are not allowed in routing requirements: " ++ Text.quoted source
  | .invalidRouteName name => "Invalid route name: '" ++ name ++ "'"
  | .routeNameInUse name => "Invalid route name, already in use: '" ++ name ++ "'"
  | .multipleRoots a b => "Multiple unconstrained root routes: " ++ a ++ " and " ++ b
  | .colonInKey key => "Route option keys cannot contain ':' (got " ++ Text.quoted key ++ ")"
  | .missingController =>
    "Missing :controller key on routes definition, please check your routes."
  | .missingAction => "Missing :action key on routes definition, please check your routes."
  | .controllerWithSlash c => "controller name should not start with a slash: '" ++ c ++ "'"
  | .unsupportedController c =>
    "'" ++ c ++ "' is not a supported controller name. " ++
      "This can lead to potential routing problems."
  | .custom text => text

def RequestFault.message : RequestFault → String
  | .undecodablePath path => "Invalid encoding in request path: " ++ path
  | .custom text => text

def ConfigurationFault.message : ConfigurationFault → String
  | .routeFileUnreadable path reason => "Failed to read route file '" ++ path ++ "': " ++ reason
  | .routeFileSyntax reason => "Failed to parse TOML: " ++ reason
  | .routeFileShape reason => "Invalid route file: " ++ reason
  | .settingsUnreadable path reason => "Cannot read settings file '" ++ path ++ "': " ++ reason
  | .settingsTomlSyntax reason => "Invalid TOML settings: " ++ reason
  | .settingsJsonSyntax reason => "Invalid JSON settings: " ++ reason
  | .settingsShape reason => "Invalid settings value: " ++ reason
  | .routeMethod m => "Invalid HTTP method '" ++ m ++ "'"
  | .requestMethod m => "Invalid HTTP method: " ++ m
  | .notPair value => "Expected key=value, got '" ++ value ++ "'"
  | .mixedParams => "Cannot mix key=value params with positional values"
  | .checkFailed n path =>
    "Route check found " ++ toString n ++ " error(s) in " ++ path
  | .custom text => text

def RoutingError.message : RoutingError → String
  | .pattern e => "Pattern error: " ++ e.message
  | .constraint f => "Unsupported constraint: " ++ f.message
  | .declaration f => "Improperly configured: " ++ f.message
  | .badRequest f => "Bad request: " ++ f.message
  | .generation e => e.message
  | .unfilteredParameters keys =>
    "Attempting to generate a URL from non-sanitized request parameters: [" ++ commaList keys ++ "]"
  | .configuration f => "Configuration error: " ++ f.message
  | .io text => "IO error: " ++ text

/-- The message of the error behind this one. -/
def RoutingError.cause? : RoutingError → Option String
  | .pattern e => some e.message
  | .io text => some text
  | _ => none

/-- Requests that are at fault themselves are answered with 400. -/
def RoutingError.status : RoutingError → Nat
  | .badRequest _ => 400
  | .unfilteredParameters _ => 400
  | _ => 500

/-- Errors in the declarations of a table. -/
def RoutingError.isBuildError : RoutingError → Bool
  | .pattern _ => true
  | .constraint _ => true
  | .declaration _ => true
  | _ => false

end RouteEngine
