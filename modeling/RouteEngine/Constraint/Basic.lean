import RouteEngine.Error
import RouteEngine.Regex.Quote
import RouteEngine.Regex.Whole
import RouteEngine.Request.Basic

/-!
Constraints on values and requests. A predicate may read and change a state of any type, which is
passed along explicitly: evaluating a constraint gives its answer and the state after it. All
other constraints leave the state alone.
-/

namespace RouteEngine

/-- What a predicate may look at besides the state. -/
inductive Predicate (σ : Type)
  | request (decide : Request → σ → Bool × σ)
  | params (decide : Params → Request → σ → Bool × σ)
  | matcher (decide : Request → σ → Bool × σ)

def Predicate.call {σ : Type} (params : Params) (r : Request) : Predicate σ → σ → Bool × σ
  | .request f => f r
  | .params f => f params r
  | .matcher f => f r

inductive Constraint (σ : Type)
  | literal (value : String)
  /-- An expression for the whole value, with its source. -/
  | regex (source : String) (whole : Regex)
  | set (values : List String)
  /-- The value is there and not empty, or is not. -/
  | presence (required : Bool)
  | predicate (p : Predicate σ)

namespace Constraint

variable {σ : Type}

def ofRegex (source : String) : Except RoutingError (Constraint σ) :=
  if Regex.carriesAnchor source.toList then
    .error (.declaration (.anchoredConstraint source))
  else
    match Regex.parseWhole source with
    | .ok r => .ok (.regex source r)
    | .error e => .error (.constraint (.invalidRegex source e))

def wholeText? : Json → Option String
  | .string s => some s
  | .number (.int i) => some (toString i)
  | _ => none

/-- The members of a set, or the first item that cannot be one. -/
def members : List Json → Except Json (List String)
  | [] => .ok []
  | x :: xs =>
    match wholeText? x with
    | none => .error x
    | some s => (members xs).map (s :: ·)

/-- A constraint by its value in a document: a string or whole number stands for itself, a truth
value for presence, a list for a set, and an object names an expression. -/
def ofValue (key : String) (value : Json) : Except RoutingError (Constraint σ) :=
  let unsupported (v : Json) : Except RoutingError (Constraint σ) :=
    .error (.constraint (.unsupportedShape key v))
  match value with
  | .string s => .ok (.literal s)
  | .bool b => .ok (.presence b)
  | .number (.int i) => .ok (.literal (toString i))
  | .array items =>
    match members items with
    | .ok values => .ok (.set values)
    | .error item => unsupported item
  | .object [("regex", .string source)] => ofRegex source
  | other => unsupported other

/-- The expression that a path segment under the constraint has to match, if there is one. -/
def segmentRegex? : Constraint σ → Option String
  | literal value => some (Regex.quote value)
  | regex source _ => some source
  | set values => some ("|".intercalate (values.map Regex.quote))
  | presence _ => none
  | predicate _ => none

def isPredicate : Constraint σ → Bool
  | predicate _ => true
  | _ => false

def isPresent (value : Option String) : Bool := value.any (· ≠ "")

def evaluate (c : Constraint σ) (value : Option String) (params : Params) (r : Request) (s : σ) :
    Bool × σ :=
  match c with
  | literal expected => (value = some expected, s)
  | regex _ whole => (value.any whole.matchesValue, s)
  | set values => (value.any values.contains, s)
  | presence required => (isPresent value == required, s)
  | predicate p => p.call params r s

def describe : Constraint σ → String
  | literal value => Text.quoted value
  | regex source _ => "/" ++ source ++ "/"
  | set values => Text.quotedList values
  | presence required => if required then "true" else "false"
  | predicate _ => "<predicate>"

end Constraint

end RouteEngine
