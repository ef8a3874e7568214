import RouteEngine.Table.Basic

/-!
Checking declarations: they have to be readable and buildable, there should be some, and none
should be out of reach behind an earlier one that takes all its requests.
-/

namespace RouteEngine

inductive CheckLevel
  | warning
  | error
  | critical
  deriving DecidableEq, Repr

def CheckLevel.name : CheckLevel → String
  | warning => "WARNING"
  | error => "ERROR"
  | critical => "CRITICAL"

/-- The finding keeps the declarations from being used. -/
def CheckLevel.isFailure : CheckLevel → Bool
  | warning => false
  | _ => true

inductive Finding (σ : Type)
  | unreadable (e : RoutingError)
  | unbuildable (e : RoutingError)
  | noRoutes
  | shadowed (later earlier : Route σ)

namespace Finding

variable {σ : Type}

def level : Finding σ → CheckLevel
  | unreadable _ => .critical
  | unbuildable _ => .error
  | _ => .warning

def code : Finding σ → String
  | unreadable _ => "routes.E001"
  | unbuildable _ => "routes.E002"
  | noRoutes => "routes.W001"
  | shadowed _ _ => "routes.W002"

def message : Finding σ → String
  | unreadable e => e.message
  | unbuildable e => e.message
  | noRoutes => "No routes are defined"
  | shadowed later earlier =>
    later.verbs.text ++ " " ++ later.path ++ " (" ++ later.endpoint.text ++
      ") is shadowed by the earlier " ++ earlier.endpoint.text

def hint : Finding σ → Option String
  | unreadable _ => some "Fix the route file so it parses"
  | unbuildable (.pattern _) => some "Check the path pattern syntax"
  | unbuildable (.constraint _) =>
    some "Constraints are strings, integers, booleans, arrays, or \x7b regex = \"...\" \x7d"
  | shadowed _ _ => some "Remove one of the routes or add a constraint to the earlier one"
  | _ => none

def line (f : Finding σ) : String :=
  let hint := match f.hint with
    | some h => "\n\tHINT: " ++ h
    | none => ""
  f.level.name ++ " (" ++ f.code ++ "): " ++ f.message ++ hint

end Finding

namespace Check

variable {σ : Type}

/-- The earlier route takes every request that the later one could accept. -/
def shadows (earlier later : Route σ) : Bool :=
  earlier.constraints.isEmpty && earlier.isAnchored == later.isAnchored &&
    earlier.pattern.regexText = later.pattern.regexText && earlier.verbs.overlaps later.verbs

/-- A finding for every route with an earlier one that shadows it, the first of those. -/
def shadowed (earlier : List (Route σ)) : List (Route σ) → List (Finding σ)
  | [] => []
  | r :: rs =>
    let here :=
      match earlier.find? fun e => shadows e r with
      | some e => [.shadowed r e]
      | none => []
    here ++ shadowed (earlier ++ [r]) rs

def table (t : Table σ) : List (Finding σ) :=
  (if t.routes.isEmpty then [.noRoutes] else []) ++ shadowed [] t.routes

/-- What is wrong with declarations that were read, or could not be. -/
def run (entries : Except RoutingError (Entries σ)) (settings : Settings) : List (Finding σ) :=
  match entries with
  | .error e => [.unreadable e]
  | .ok es =>
    match Table.draw es settings with
    | .error e => [.unbuildable e]
    | .ok t => table t

end Check

end RouteEngine
