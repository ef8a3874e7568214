import RouteEngine.Table.Recognition

/-!
Recognition in a build that checks its sums. Constraints are checked in the order in which
recognition comes to them, and the first whose value cannot be computed ends all of it in a panic;
predicates that were asked before have been asked.
-/

namespace RouteEngine

variable {σ : Type}

namespace Route

/-- The panic that checking constraints ends in, with the state it leaves behind. -/
def firstPanic? (tldLength : UInt64) (params : Params) (request : Request) :
    List (BoundConstraint σ) → σ → Option (String × σ)
  | [], _ => none
  | c :: cs, s =>
    match c.panic? tldLength request with
    | some message => some (message, s)
    | none =>
      match c.check tldLength params request s with
      | (true, s) => firstPanic? tldLength params request cs s
      | (false, _) => none

def panic? (r : Route σ) (tldLength : UInt64) (request : Request) (path : String) (s : σ) :
    Option (String × σ) :=
  match r.pattern.matchPath path with
  | none => none
  | some captured =>
    if r.verbs.accepts request.method then
      firstPanic? tldLength (r.paramsFor captured.params) request r.constraints s
    else none

end Route

namespace Table

/-- The panic that trying the routes in turn ends in. -/
def panicFrom? (tldLength : UInt64) (request : Request) (path : String) :
    List (Route σ) → σ → Option (String × σ)
  | [], _ => none
  | r :: rs, s =>
    match r.panic? tldLength request path s with
    | some panic => some panic
    | none =>
      match r.attempt tldLength request path s with
      | (.accepted _, _) => none
      | (_, s) => panicFrom? tldLength request path rs s

def panic? (t : Table σ) (request : Request) (s : σ) : Option (String × σ) :=
  match checkedPath request with
  | .error _ => none
  | .ok path => panicFrom? t.tldLength request path t.routes s

/-- What `recognize` answers, unless it ends in a panic. -/
def recognizeChecked (t : Table σ) (request : Request) (s : σ) :
    Outcome (Except RoutingError (Recognition σ)) × σ :=
  match t.panic? request s with
  | some (message, s) => (.panicked message, s)
  | none =>
    let (result, s) := t.recognize request s
    (.returned result, s)

end Table

end RouteEngine
