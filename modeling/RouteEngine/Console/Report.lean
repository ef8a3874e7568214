import RouteEngine.Request.Origin
import RouteEngine.Table.Recognition

/-!
Reports on how a request is recognized, for a person to read.
-/

namespace RouteEngine.Report

/-- The request for a target with further attributes; the method is given in any case. -/
def request (method target : String) (attributes : List (String × String)) :
    Except RoutingError Request :=
  match Method.parse? (upperAscii method) with
  | some m => .ok ((Request.ofUrl m target).addAttributes attributes)
  | none => .error (.configuration (.requestMethod method))

def matchLines {σ : Type} (m : RouteMatch σ) : List String :=
  let route := m.route.name.getD "<unnamed>" ++ " (" ++ m.route.verbs.text ++ " " ++
    m.route.path ++ ")"
  let params := m.params.entries.map fun p => p.1 ++ "=" ++ p.2
  ["Endpoint: " ++ m.handle, "Route:    " ++ route, "Params:   " ++ ", ".intercalate params] ++
    if m.remaining = "" then [] else ["Remaining: " ++ m.remaining]

def outcome {σ : Type} (r : Request) : Recognition σ → String
  | .matched m => "\n".intercalate (matchLines m)
  | .pathOnly [] =>
    "No route accepts " ++ target ++ ": constraints rejected every candidate"
  | .pathOnly allowed =>
    "No route accepts " ++ target ++ " (allowed: " ++
      ", ".intercalate (allowed.map (·.name)) ++ ")"
  | .noMatch => "No route matches " ++ target
where
  target : String := r.method.name ++ " " ++ r.path

def recognition {σ : Type} (t : Table σ) (r : Request) (s : σ) : Except RoutingError String × σ :=
  let (result, s) := t.recognize r s
  (result.map (outcome r), s)

end RouteEngine.Report
