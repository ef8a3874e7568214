import RouteEngine.Log.Basic
import RouteEngine.Table.Recognition

/-!
What drawing a table and recognizing a request leave in the log.
-/

namespace RouteEngine

def tableSource : String := "switchyard_http::routing::table"

def tableLine (level : LogLevel) (message : String) : LogLine :=
  { level, source := tableSource, message }

def skippedLine : LogLine :=
  { level := .warn, source := "switchyard_http::routing::route"
    message := "skipping route excluded by only/except" }

namespace Table

variable {σ : Type}

/-- The lines of entering declarations one by one, up to the first that fails. -/
def declarationLines (settings : Settings) : List (Scope σ × Declaration σ) → Table σ → List LogLine
  | [], _ => [tableLine .debug "route table drawn"]
  | (scope, d) :: rest, t =>
    let here := if d.isPermitted scope then [] else [skippedLine]
    match t.declare settings scope d with
    | .error _ => here
    | .ok next =>
      let added := if t.size < next.size then [tableLine .debug "route added"] else []
      here ++ added ++ declarationLines settings rest next

def drawingLines (entries : Entries σ) (settings : Settings) : List LogLine :=
  declarationLines settings (entries.inScopes .root) (.empty settings)

def outcomeLine : Recognition σ → LogLine
  | .matched _ => tableLine .debug "matched"
  | .pathOnly _ => tableLine .debug "path matched but no route accepted the request"
  | .noMatch => tableLine .debug "no route matched"

/-- The lines of the routes that are tried in vain. -/
def rejectionLines (tldLength : UInt64) (request : Request) (path : String) :
    List (Route σ) → σ → List LogLine
  | [], _ => []
  | r :: rs, s =>
    match r.attempt tldLength request path s with
    | (.accepted _, _) => []
    | (.missed, s) => rejectionLines tldLength request path rs s
    | (.wrongVerb, s) =>
      tableLine .trace "rejected by verb" :: rejectionLines tldLength request path rs s
    | (.rejected _, s) =>
      tableLine .trace "rejected by constraint" :: rejectionLines tldLength request path rs s

def recognitionLines (t : Table σ) (request : Request) (s : σ) : List LogLine :=
  match checkedPath request with
  | .error _ => []
  | .ok path =>
    let lines := rejectionLines t.tldLength request path t.routes s ++
      [outcomeLine (recognizeFrom t.tldLength request path t.routes [] false s).1]
    lines.map fun l => { l with task := some "recognize" }

end Table

end RouteEngine
