import RouteEngine.Request.Origin
import RouteEngine.Service.Basic
import RouteEngine.Table.Checked

/-!
Assertions about a service, for tests of a table: what a request is recognized as, which path
values give, and what a response is like. The text of a failure shows both sides.
-/

namespace RouteEngine.Assertion

variable {σ : Type}

/-- `none` when the assertion holds, else the text of its failure or of the panic it ends in. -/
abbrev Verdict := Option String

/-- Two values that should be equal, shown one below the other. -/
def difference (text left right : String) : String :=
  "assertion \x60left == right\x60 failed: " ++ text ++ "\n  left: " ++ left ++ "\n right: " ++ right

def pairText (p : String × String) : String :=
  "(" ++ Text.quoted p.1 ++ ", " ++ Text.quoted p.2 ++ ")"

def paramsText (p : Params) : String := "[" ++ ", ".intercalate (p.entries.map pairText) ++ "]"

def targetText : LinkTarget → String
  | .named name => "Named(" ++ Text.quoted name ++ ")"
  | .unnamed => "Unnamed"

/-- The request is recognized with exactly these values. -/
def recognizes (live : Service σ) (expected : Params) (method : Method) (target : String) (s : σ) :
    Verdict × σ :=
  let request := ({} : Request.Factory).request method target
  let what := method.name ++ " " ++ target
  let (result, s) := live.table.recognizeChecked request s
  let verdict : Verdict :=
    match result with
    | .panicked message => some message
    | .returned (.error e) => some (what ++ " was rejected: " ++ e.message)
    | .returned (.ok .noMatch) => some ("No route matches " ++ what)
    | .returned (.ok (.pathOnly allowed)) =>
      some (what ++ " matched a path but no route accepted it (allowed: [" ++
        ", ".intercalate (allowed.map (·.name)) ++ "])")
    | .returned (.ok (.matched m)) =>
      if m.params = expected then none
      else
        some (difference (what ++ " recognized with different params") (paramsText m.params)
          (paramsText expected))
  (verdict, s)

/-- The values give exactly this path. -/
def generates (live : Service σ) (expected : String) (target : LinkTarget) (values : Params) :
    Verdict :=
  match live.linker.path target (.keyed values) with
  | .error e => some ("Failed to generate " ++ targetText target ++ ": " ++ e.message)
  | .ok path =>
    if path = expected then none
    else
      some (difference ("Generated path for " ++ targetText target ++ " differs")
        (Text.quoted path) (Text.quoted expected))

/-- A path and values that lead to each other. -/
def routes (live : Service σ) (path : String) (values : Params) (s : σ) : Verdict × σ :=
  match recognizes live values Method.get path s with
  | (none, s) => (generates live path .unnamed values, s)
  | failed => failed

/-- The usual names of the statuses that responses have. -/
def statusName : Nat → String
  | 200 => "OK"
  | 300 => "Multiple Choices"
  | 301 => "Moved Permanently"
  | 302 => "Found"
  | 303 => "See Other"
  | 304 => "Not Modified"
  | 305 => "Use Proxy"
  | 307 => "Temporary Redirect"
  | 308 => "Permanent Redirect"
  | 400 => "Bad Request"
  | 404 => "Not Found"
  | 500 => "Internal Server Error"
  | _ => "<unknown status code>"

def statusText (status : Nat) : String := toString status ++ " " ++ statusName status

/-- The response redirects to exactly this location. -/
def redirects (r : Response) (expected : String) : Verdict :=
  if r.status < 300 ∨ 400 ≤ r.status then
    some ("Expected a redirect (3xx), got " ++ statusText r.status)
  else
    match r.headers.text? "location" with
    | none => some "Redirect response missing Location header"
    | some location =>
      if location = expected then none
      else
        some (difference ("Expected redirect to '" ++ expected ++ "', got '" ++ location ++ "'")
          (Text.quoted location) (Text.quoted expected))

def hasStatus (r : Response) (expected : Nat) : Verdict :=
  if r.status = expected then none
  else
    some (difference ("Expected status " ++ toString expected ++ ", got " ++ statusText r.status)
      (toString r.status) (toString expected))

end RouteEngine.Assertion
