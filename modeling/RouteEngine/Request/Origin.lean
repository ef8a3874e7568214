import RouteEngine.Request.Target
import RouteEngine.Url.Basic

/-!
Where requests come from: a URL, the parts of a received request, or a factory that fills in a
host, a scheme and headers for a series of requests.
-/

namespace RouteEngine.Request

open Text

/-- A request for a URL. What is no URL with a host is a path with a query. -/
def ofUrl (method : Method) (target : String) : Request :=
  let r : Request := { method }
  match Url.parse? target with
  | some u =>
    let r := { (r.setScheme u.scheme).setHost u.host with path := u.path, query := u.query.getD "" }
    { r with explicitPort := u.port.or r.explicitPort }
  | none => r.setTarget target

def isBlank (c : Char) : Bool := c = ' ' || c = '\t'

/-- The client as a proxy names it: the first of a list. -/
def forwardedFor (h : Headers) : Option String :=
  (h.text? "x-forwarded-for").map fun v =>
    String.ofList (trim isBlank (v.toList.takeWhile (· ≠ ',')))

def forwardedSecure (h : Headers) : Bool :=
  match h.text? "x-forwarded-proto" with
  | some v => lowerAscii v = "https"
  | none => false

/-- A received request. The authority of the target goes before the `host` header. -/
def ofParts (method : Method) (target : Target) (headers : Headers) : Request :=
  let (host, explicitPort) :=
    match target.authority with
    | some a => (Target.hostOf a, Target.portOf a)
    | none =>
      match headers.text? "host" with
      | some v => splitHost v
      | none => ("localhost", none)
  let scheme :=
    match target.scheme with
    | some s => lowerAscii s
    | none => if forwardedSecure headers then "https" else "http"
  { method, host, explicitPort, scheme, headers
    path := target.path
    query := target.query.getD ""
    remoteIp := forwardedFor headers }

/-- The same host, scheme, headers and attributes for every request. -/
structure Factory where
  host : String := "testserver"
  scheme : String := "http"
  headers : Dict String := .empty
  attributes : Dict String := .empty

/-- A target with `://` is a URL, which brings its own host and no headers. -/
def Factory.request (f : Factory) (method : Method) (target : String) : Request :=
  let r :=
    if contains [':', '/', '/'] target.toList then ofUrl method target
    else
      let r : Request := { method }
      let r := ((r.setScheme f.scheme).setHost f.host).setTarget target
      f.headers.entries.foldl (fun r h => r.setHeader h.1 h.2) r
  r.addAttributes f.attributes.entries

end RouteEngine.Request
