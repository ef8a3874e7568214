import RouteEngine.Link.Linker
import RouteEngine.Table.Recognition

/-!
The table in service with its settings. A reload builds the new table completely before it takes
the place of the old one, which stays when the new one cannot be drawn. Serving offers a request
to the accepting routes in turn, until one of them does not pass it on.
-/

namespace RouteEngine

structure Service (σ : Type) where
  table : Table σ
  settings : Settings

namespace Service

variable {σ τ : Type}

def empty (settings : Settings) : Service σ := ⟨.empty settings, settings⟩

def draw (entries : Entries σ) (settings : Settings) : Except RoutingError (Service σ) :=
  (Table.draw entries settings).map fun t => ⟨t, settings⟩

/-- The service after a reload, and what went wrong with it. -/
def reload (live : Service σ) (entries : Entries σ) : Option RoutingError × Service σ :=
  match Table.draw entries live.settings with
  | .ok table => (none, { live with table })
  | .error e => (some e, live)

def linker (live : Service σ) : Linker σ := .ofTable live.table live.settings

def cascadePass : String := "pass"

def isPass (live : Service σ) (r : Response) : Bool :=
  r.headers.get? live.settings.cascadeHeader = some cascadePass

def plainResponse (status : Nat) (body : String) : Response :=
  { status, headers := Headers.empty.set "content-type" "text/plain; charset=utf-8", body }

/-- The answer when no route keeps the request; it passes the request on in turn. -/
def notFound (live : Service σ) : Response :=
  let r := plainResponse 404 "Not Found"
  { r with headers := r.headers.setValid live.settings.cascadeHeader cascadePass }

/-- The first answer that is no pass. Redirects answer by themselves; the handler answers for
everything else and may keep a state of its own. -/
def firstAnswer (live : Service σ) (request : Request)
    (handler : RouteMatch σ → τ → Response × τ) : List (RouteMatch σ) → τ → Response × τ
  | [], t => (live.notFound, t)
  | m :: ms, t =>
    let (response, t) :=
      match m.route.endpoint with
      | .redirect r => (r.response m.params request, t)
      | _ => handler m t
    if live.isPass response then firstAnswer live request handler ms t else (response, t)

def serve (live : Service σ) (request : Request) (handler : RouteMatch σ → τ → Response × τ)
    (s : σ) (t : τ) : Response × σ × τ :=
  match live.table.accepting request s with
  | (.error e, s) => (plainResponse e.status e.message, s, t)
  | (.ok ms, s) =>
    let (response, t) := live.firstAnswer request handler ms t
    (response, s, t)

end Service

end RouteEngine
