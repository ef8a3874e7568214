import RouteEngine.Link.Query
import RouteEngine.Link.Values
import RouteEngine.Table.Basic
import RouteEngine.Text.Distance

/-!
Making URLs. A value comes from the caller, else from the defaults of the route, else, where the
path requires it, from the request being answered. A route is looked up by its name, or it is the
first one whose defaults and expressions the values agree with. The path may be filled from the
template of the route, which gives what the whole pattern would give.
-/

namespace RouteEngine

inductive LinkTarget
  | named (name : String)
  | unnamed
  deriving DecidableEq, Repr

structure LinkOptions where
  onlyPath : Bool := false
  host : Option String := none
  /-- With or without `://`. -/
  protocol : Option String := none
  port : Option Nat := none
  anchor : Option String := none
  scriptName : Option String := none
  trailingSlash : Bool := false
  deriving DecidableEq, Repr

def LinkOptions.pathOnly : LinkOptions := { onlyPath := true }

structure Linker (σ : Type) where
  table : Table σ
  defaults : UrlDefaults
  /-- Paths may be filled from templates. -/
  optimize : Bool
  /-- The values of the request being answered. -/
  recalled : Params := .empty

/-- The caller's values, then the defaults of the route, then recalled values for required keys.
An empty value counts as none. -/
def Route.mergedValues {σ : Type} (r : Route σ) (explicit recalled : Params) : Params :=
  let needed := recalled.filter fun k _ => r.requiredKeys.contains k
  ((explicit.orElse r.defaults).orElse needed).filter fun _ v => v ≠ ""

/-- The names whose value does not match the expression asked for. -/
def Route.rejectedNames {σ : Type} (r : Route σ) (values : Params) : List String :=
  r.pattern.names.filter fun n =>
    match values.get? n, r.pattern.requirement? n with
    | some value, some whole => !whole.matchesValue value
    | _, _ => false

/-- The caller gave a value that is not the default anyway. -/
def Route.isWanted {σ : Type} (r : Route σ) (explicit : Params) (name : String) : Bool :=
  match explicit.get? name with
  | some value => r.defaults.get? name ≠ some value
  | none => false

/-- The caller's values that go into the query: neither captures, nor defaults, nor options. -/
def Route.queryPairs {σ : Type} (r : Route σ) (explicit : Params) : List (String × String) :=
  explicit.entries.filter fun e =>
    !r.pattern.names.contains e.1 && !r.defaults.contains e.1 && !Pattern.isReserved e.1

def Route.failure {σ : Type} (r : Route σ) (values : Params) (kind : GenerationFailure) :
    GenerationError :=
  { kind, route := r.name, params := values }

namespace Linker

variable {σ : Type}

/-- The linker of a table under given settings. -/
def ofTable (t : Table σ) (s : Settings) : Linker σ :=
  { table := t, defaults := s.urlDefaults, optimize := s.optimizeGeneration }

def lookup (l : Linker σ) (explicit : Params) (key : String) : Option String :=
  (explicit.get? key).or (l.recalled.get? key)

/-- The values agree with the defaults and expressions of the route and fill its path. -/
def agrees (l : Linker σ) (explicit : Params) (r : Route σ) : Bool :=
  r.isAnchored &&
  (r.defaults.entries.all fun d =>
    r.pattern.names.contains d.1 || l.lookup explicit d.1 = some d.2) &&
  (r.pattern.names.all fun n =>
    match l.lookup explicit n, r.pattern.requirement? n with
    | some value, some whole => whole.matchesValue value
    | _, _ => true) &&
  r.requiredKeys.all fun k => explicit.contains k || r.defaults.contains k || l.recalled.contains k

/-- The path of a route, from its template if that will do. -/
def pathOf (l : Linker σ) (r : Route σ) (explicit : Params) :
    Except GenerationError String :=
  let values := r.mergedValues explicit l.recalled
  let rejected := r.rejectedNames values
  if !rejected.isEmpty then .error { r.failure values .rejectedValues with rejected }
  else
    let wanted := r.isWanted explicit
    let general := r.pattern.generate values wanted
    let result :=
      match r.template with
      | some parts =>
        if l.optimize && !r.pattern.optionalNames.any wanted then (fillTemplate values parts).result
        else general
      | none => general
    match result with
    | .ok generated => .ok generated.path
    | .error missing => .error { r.failure values .missingKeys with missing }

/-- The route of a target, and the values by the names of its captures. -/
def select (l : Linker σ) (target : LinkTarget) (source : LinkValues) :
    Except GenerationError (Route σ × Params) :=
  match target with
  | .named name =>
    match l.table.route? name with
    | some r => .ok (r, source.bind r.pattern)
    | none =>
      let suggestion := Text.suggest name l.table.names
      .error { kind := .unknownRoute, route := some name, suggestion }
  | .unnamed =>
    match source.keyed? with
    | none => .error { kind := .noRouteMatches }
    | some explicit =>
      match l.table.routes.find? (l.agrees explicit) with
      | some r => .ok (r, explicit)
      | none => .error { kind := .noRouteMatches, params := explicit }

def anchorText : Option String → List Char
  | some anchor => '#' :: Escape.escapeWith Escape.isFragmentSafe anchor.toList
  | none => []

def withTrailingSlash (wanted : Bool) (path : List Char) : List Char :=
  if wanted && !Text.endsWith ['/'] path then path ++ ['/'] else path

/-- The path behind the script name, then the query, then the anchor. -/
def relative (l : Linker σ) (r : Route σ) (explicit : Params) (path : String)
    (o : LinkOptions) : List Char :=
  let script := ((o.scriptName.or l.defaults.scriptName).getD "").toList
  let path := Text.trimEnd (· = '/') script ++ path.toList
  let query := Query.encodeAll (r.queryPairs explicit)
  withTrailingSlash o.trailingSlash path ++
    (if query.isEmpty then [] else '?' :: query) ++ anchorText o.anchor

/-- The scheme that a protocol names. -/
def schemeOf (protocol : String) : String :=
  String.ofList (Text.trimEnd (· = ':') (Text.trimEndWord [':', '/', '/'] protocol.toList))

def isStandardPort (scheme : String) (port : Nat) : Bool :=
  (scheme = "http" && port = 80) || (scheme = "https" && port = 443)

/-- Puts the scheme, host and port in front, unless only the path is wanted. -/
def finish (l : Linker σ) (r : Route σ) (explicit : Params) (path : String)
    (o : LinkOptions) : Except GenerationError String :=
  let url := String.ofList (l.relative r explicit path o)
  if o.onlyPath then .ok url
  else
    match o.host.or l.defaults.host with
    | none => .error { kind := .missingHost }
    | some host =>
      let scheme := schemeOf ((o.protocol.or l.defaults.protocol).getD "http")
      let port := (o.port.or l.defaults.port).filter fun p => !isStandardPort scheme p
      .ok (scheme ++ "://" ++ host ++ Request.portText port ++ url)

def url (l : Linker σ) (target : LinkTarget) (source : LinkValues) (o : LinkOptions) :
    Except RoutingError String :=
  match source.unfiltered? with
  | some keys => .error (.unfilteredParameters keys)
  | none => Except.mapError .generation do
    let (r, explicit) ← l.select target source
    let path ← l.pathOf r explicit
    l.finish r explicit path o

def path (l : Linker σ) (target : LinkTarget) (source : LinkValues) :
    Except RoutingError String :=
  l.url target source .pathOnly

end Linker

end RouteEngine
