import RouteEngine.Constraint.Bound
import RouteEngine.Pattern.Generation
import RouteEngine.Pattern.Matching
import RouteEngine.Route.Endpoint
import RouteEngine.Route.Verbs

/-!
Routes as they stand in a table. A matched route delivers its defaults with the captured values
on top, and it accepts when each of its constraints holds; they are asked in order, and the first
that fails is the last that is asked.
-/

namespace RouteEngine

structure Route (σ : Type) where
  name : Option String
  verbs : Verbs
  pattern : Pattern
  /-- What has to hold beyond the path expression. -/
  constraints : List (BoundConstraint σ)
  /-- Among them the controller and action. -/
  defaults : Params
  endpoint : Endpoint
  /-- The place in the table. -/
  precedence : Nat
  /-- The pattern without its groups, when leaving them out never changes a path. -/
  template : Option (List TemplatePart)

/-- A row of a listing. -/
structure RouteDescription where
  name : String
  verbs : String
  path : String
  endpoint : String
  constraints : List String
  deriving DecidableEq, Repr

namespace Route

variable {σ : Type}

def path (r : Route σ) : String := r.pattern.source

def isAnchored (r : Route σ) : Bool := r.pattern.anchored

def requiredKeys (r : Route σ) : List String := r.pattern.requiredKeys

def paramsFor (r : Route σ) (captured : Params) : Params := r.defaults.override captured

/-- The label of the first constraint that fails. -/
def firstFailure (tldLength : UInt64) (params : Params) (request : Request) :
    List (BoundConstraint σ) → σ → Option String × σ
  | [], s => (none, s)
  | c :: cs, s =>
    match c.check tldLength params request s with
    | (true, s) => firstFailure tldLength params request cs s
    | (false, s) => (some c.label, s)

def checkConstraints (r : Route σ) (tldLength : UInt64) (params : Params) (request : Request) (s : σ) :
    Option String × σ :=
  firstFailure tldLength params request r.constraints s

def describe (r : Route σ) : RouteDescription where
  name := r.name.getD ""
  verbs := r.verbs.text
  path := r.path
  endpoint := r.endpoint.text
  constraints := r.constraints.map BoundConstraint.describe

/-- The route answers the bare root whatever the request is like. -/
def isOpenRoot (r : Route σ) : Bool := r.path = "/" && r.isAnchored && r.constraints.isEmpty

end Route

end RouteEngine
