import RouteEngine.Table.Basic

/-!
Looking up requests. The routes are tried in order of precedence, each by its path, then its
methods, then its constraints, and the first that passes all three answers. When none does, the
outcome says whether some path matched, and which methods would have been answered there.
-/

namespace RouteEngine

structure RouteMatch (σ : Type) where
  route : Route σ
  params : Params
  /-- What a mounted route leaves of the path. -/
  remaining : String

def RouteMatch.handle {σ : Type} (m : RouteMatch σ) : String := m.route.endpoint.handleFor m.params

/-- How a single route takes a request. -/
inductive Attempt (σ : Type)
  | accepted (m : RouteMatch σ)
  | wrongVerb
  /-- A constraint failed. -/
  | rejected (label : String)
  | missed

inductive Recognition (σ : Type)
  | matched (m : RouteMatch σ)
  /-- Some path matched, and `allowed` are the methods listed where only the method was wrong. -/
  | pathOnly (allowed : List Method)
  | noMatch

def Recognition.match? {σ : Type} : Recognition σ → Option (RouteMatch σ)
  | .matched m => some m
  | _ => none

/-- Methods in ascending order, each once. -/
def Method.ascending (ms : List Method) : List Method :=
  (Names.ascending (ms.map (·.name))).map Method.mk

namespace Route

variable {σ : Type}

def attempt (r : Route σ) (tldLength : UInt64) (request : Request) (path : String) (s : σ) :
    Attempt σ × σ :=
  match r.pattern.matchPath path with
  | none => (.missed, s)
  | some captured =>
    if r.verbs.accepts request.method then
      let params := r.paramsFor captured.params
      match r.checkConstraints tldLength params request s with
      | (some label, s) => (.rejected label, s)
      | (none, s) => (.accepted ⟨r, params, captured.remaining⟩, s)
    else (.wrongVerb, s)

/-- A route accepts what its pattern and its methods take, and makes the match of the captures. -/
theorem captured_of_attempt {r : Route σ} {tldLength : UInt64} {request : Request} {path : String}
    {s s' : σ} {m : RouteMatch σ} (h : r.attempt tldLength request path s = (.accepted m, s')) :
    ∃ captured, r.pattern.matchPath path = some captured ∧
      r.verbs.accepts request.method = true ∧
      m = ⟨r, r.paramsFor captured.params, captured.remaining⟩ := by
  unfold attempt at h
  split at h
  · cases h
  · next captured hpath =>
      split at h
      · next hverbs =>
          simp only at h
          split at h
          · cases h
          · cases h
            exact ⟨captured, hpath, hverbs, rfl⟩
      · cases h

end Route

namespace Table

variable {σ : Type}

/-- The canonical path of a request, which has to stand for text. -/
def checkedPath (request : Request) : Except RoutingError String :=
  let path := Escape.normalizePath request.path
  match Escape.unescape path with
  | some _ => .ok path
  | none => .error (.badRequest (.undecodablePath request.path))

/-- Tries the routes in turn. `allowed` holds the methods of the routes passed over, and `found`
says whether the path of one of them matched. -/
def recognizeFrom (tldLength : UInt64) (request : Request) (path : String) :
    List (Route σ) → (allowed : List Method) → (found : Bool) → σ → Recognition σ × σ
  | [], allowed, found, s =>
    (if found then .pathOnly (Method.ascending allowed) else .noMatch, s)
  | r :: rs, allowed, found, s =>
    match r.attempt tldLength request path s with
    | (.accepted m, s) => (.matched m, s)
    | (.wrongVerb, s) =>
      recognizeFrom tldLength request path rs (allowed ++ r.verbs.methods) true s
    | (.rejected _, s) => recognizeFrom tldLength request path rs allowed true s
    | (.missed, s) => recognizeFrom tldLength request path rs allowed found s

def recognize (t : Table σ) (request : Request) (s : σ) : Except RoutingError (Recognition σ) × σ :=
  match checkedPath request with
  | .error e => (.error e, s)
  | .ok path =>
    let (outcome, s) := recognizeFrom t.tldLength request path t.routes [] false s
    (.ok outcome, s)

def acceptingFrom (tldLength : UInt64) (request : Request) (path : String) :
    List (Route σ) → σ → List (RouteMatch σ) × σ
  | [], s => ([], s)
  | r :: rs, s =>
    match r.attempt tldLength request path s with
    | (.accepted m, s) =>
      let (ms, s) := acceptingFrom tldLength request path rs s
      (m :: ms, s)
    | (_, s) => acceptingFrom tldLength request path rs s

/-- Every route that accepts the request, in order of precedence. -/
def accepting (t : Table σ) (request : Request) (s : σ) :
    Except RoutingError (List (RouteMatch σ)) × σ :=
  match checkedPath request with
  | .error e => (.error e, s)
  | .ok path =>
    let (ms, s) := acceptingFrom t.tldLength request path t.routes s
    (.ok ms, s)

end Table

end RouteEngine
