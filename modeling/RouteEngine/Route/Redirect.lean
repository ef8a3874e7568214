import RouteEngine.Escape.Percent
import RouteEngine.Request.Basic

/-!
Redirects. A target is a template, in which `%` and a name in braces stands for the escaped value
of that name, or is computed from the values and the request. A target that names no host gets
the one of the request, or one of the redirect's own.
-/

namespace RouteEngine

inductive RedirectTarget
  | template (text : String)
  | computed (location : Params → Request → String)

structure Redirect where
  target : RedirectTarget
  status : Nat := 301
  host : Option String := none

/-- An answer to a request, its fields by ascending names. -/
structure Response where
  status : Nat
  headers : Headers
  body : String
  deriving Repr

namespace Redirect

def ofTemplate (text : String) : Redirect := { target := .template text }

/-- Sets the status; what is no redirection is ignored. -/
def withStatus (r : Redirect) (status : Nat) : Redirect :=
  if 300 ≤ status ∧ status < 400 then { r with status } else r

def withHost (r : Redirect) (host : String) : Redirect := { r with host := some host }

def template? (r : Redirect) : Option String :=
  match r.target with
  | .template t => some t
  | .computed _ => none

/-- The escaped value of a name, nothing if it has none. -/
def filled (params : Params) (name : List Char) : List Char :=
  match params.get? (String.ofList name) with
  | some value => Escape.escapeWith Escape.isPathSafe value.toList
  | none => []

/-- Fills in a template. An opening that nothing closes stands for itself, with all that follows
it. The name being read is kept in reverse. -/
def interpolate (params : Params) : (name : Option (List Char)) → List Char → List Char
  | none, '%' :: '\x7b' :: r => interpolate params (some []) r
  | none, c :: r => c :: interpolate params none r
  | none, [] => []
  | some name, c :: r =>
    if c = '\x7d' then filled params name.reverse ++ interpolate params none r
    else interpolate params (some (c :: name)) r
  | some name, [] => '%' :: '\x7b' :: name.reverse

def targetText (r : Redirect) (params : Params) (request : Request) : String :=
  match r.target with
  | .template t => String.ofList (interpolate params none t.toList)
  | .computed f => f params request

/-- A target that brings a host along. -/
def isAbsolute (target : String) : Bool :=
  Text.contains [':', '/', '/'] target.toList || Text.startsWith ['/', '/'] target.toList

def location (r : Redirect) (params : Params) (request : Request) : String :=
  let target := r.targetText params request
  if isAbsolute target then target
  else
    let host := r.host.getD request.host
    let path := if Text.startsWith ['/'] target.toList then target else "/" ++ target
    request.protocol ++ host ++ Request.portText request.optionalPort ++ path

def body (location : String) : String :=
  "<html><body>You are being <a href=\"" ++ location ++ "\">redirected</a>.</body></html>"

/-- The location is sent as a header only when it can be one. -/
def response (r : Redirect) (params : Params) (request : Request) : Response :=
  let location := r.location params request
  let headers := Headers.empty.setValid "location" location
  { status := r.status
    headers := headers.set "content-type" "text/html; charset=utf-8"
    body := body location }

end Redirect

end RouteEngine
