import RouteEngine.Escape.Percent
import RouteEngine.Pattern.Compile

/-!
Matching a path against a pattern. The captured texts are unescaped, and a name that is captured
more than once has to stand for the same value each time. A pattern that is not anchored stops at
the end of a path segment.
-/

namespace RouteEngine.Pattern

/-- What a match leaves: the captured values and the rest of the path. -/
structure Captured where
  params : Params
  remaining : String
  deriving DecidableEq, Repr

/-- Reads the slots of a match; a slot whose group took no part is passed over. -/
def collect (found : Regex.Found) (path : List Char) : List Slot → Params → Option Params
  | [], params => some params
  | s :: rest, params =>
    match found.group? path s.group with
    | none => collect found path rest params
    | some raw =>
      match Escape.unescapeChars raw with
      | none => none
      | some value =>
        let value := String.ofList value
        match params.get? s.name with
        | some known => if known = value then collect found path rest params else none
        | none => collect found path rest (params.insert s.name value)

def matchPath (p : Pattern) (path : String) : Option Captured :=
  let cs := path.toList
  match p.regex.search cs with
  | none => none
  | some found =>
    let remaining := cs.drop found.last
    if !p.anchored && !remaining.isEmpty && remaining.head? ≠ some '/' then none
    else (collect found cs p.slots .empty).map fun params => ⟨params, String.ofList remaining⟩

/-- A match that leaves nothing of the path. -/
def fullMatch (p : Pattern) (path : String) : Option Params :=
  match p.matchPath path with
  | some c => if c.remaining.isEmpty then some c.params else none
  | none => none

end RouteEngine.Pattern
