import RouteEngine.Escape.Path
import RouteEngine.Route.Basic
import RouteEngine.Route.Scope
import RouteEngine.Settings.Basic
import RouteEngine.Text.Identifier

/-!
Declarations of routes and how they are built. A declaration is read in its scope: the path gets
the scope's prefix and its format, the name and controller are qualified, and constraints are
either put into the path expression or bound to be checked after it.
-/

namespace RouteEngine

structure Declaration (σ : Type) where
  path : String
  verbs : Verbs := .only [Method.get]
  /-- Controller and action in one, with `#` between them. -/
  target : Option String := none
  controller : Option String := none
  action : Option String := none
  handle : Option String := none
  redirect : Option Redirect := none
  name : Option String := none
  constraints : List (String × Constraint σ) := []
  /-- Expressions for parts of the path, which have to be there. -/
  requirements : List (String × String) := []
  requestConstraints : List (Constraint σ) := []
  defaults : Params := .empty
  format : Option FormatOption := none
  anchored : Bool := true
  /-- Takes the shallow path and names of its scope. -/
  shallow : Bool := false

namespace Declaration

variable {σ : Type}

/-- Hands every request below a path to a program of its own. -/
def mount (path handle : String) : Declaration σ :=
  { path, verbs := .any, handle := some handle, anchored := false, format := some .disabled }

def root : Declaration σ := { path := "/", name := some "root", format := some .disabled }

/-- The controller and action that are asked for. -/
def targetParts (d : Declaration σ) : Option String × Option String :=
  match d.target with
  | none => (d.controller, d.action)
  | some target =>
    match Text.splitFirst '#' target.toList with
    | some (c, a) =>
      (Scope.nonEmpty (some (String.ofList c)), Scope.nonEmpty (some (String.ofList a)))
    | none => (Scope.nonEmpty (some target), d.action)

def optionalFormat : List Char := "(.:format)".toList

def requiredFormat : List Char := ".:format".toList

/-- Puts a format at the end of a path, unless there is one already. -/
def appendFormat (path : List Char) : FormatOption → List Char
  | .optional =>
    if Text.endsWith ['/'] path || Text.endsWith requiredFormat path ||
        Text.endsWith optionalFormat path then path
    else path ++ optionalFormat
  | .required =>
    if Text.contains ":format".toList path then path else path ++ requiredFormat
  | .disabled => path

/-- The format of the declaration, else that of the scope, else that of the settings. -/
def formatIn (d : Declaration σ) (scope : Scope σ) (settings : Settings) : FormatOption :=
  (d.format.or scope.format).getD (if settings.appendFormat then .optional else .disabled)

def scopedPath (d : Declaration σ) (scope : Scope σ) (settings : Settings) : String :=
  let outer := if d.shallow then scope.shallowPath else scope.path
  let path := outer.toList ++ '/' :: Text.trimStart Scope.isSlash d.path.toList
  Escape.normalizeDeclaredPath (String.ofList (appendFormat path (d.formatIn scope settings)))

/-- The name with the scope's part in front, which has to be an identifier. -/
def qualifiedName (d : Declaration σ) (scope : Scope σ) :
    Except DeclarationFault (Option String) :=
  match d.name with
  | none => .ok none
  | some name =>
    let qualified :=
      if d.shallow then scope.qualifyShallowName name else scope.qualifyName name
    let qualified := qualified.getD ""
    if Text.isIdentifier qualified then .ok (some qualified)
    else .error (.invalidRouteName qualified)

def isControllerChar (c : Char) : Bool := c.isLower || c.isDigit || c = '_'

/-- Lower-case letters, digits, underscores and, but for the first place, slashes. -/
def isControllerName (name : List Char) : Bool :=
  match name with
  | [] => false
  | c :: r => isControllerChar c && r.all fun c => isControllerChar c || c = '/'

def checkController (name : String) : Except DeclarationFault Unit :=
  if Text.startsWith ['/'] name.toList then .error (.controllerWithSlash name)
  else if isControllerName name.toList then .ok ()
  else .error (.unsupportedController name)

/-- The controller asked for, which the scope qualifies, or that of the defaults. There may be
none where the path captures it. -/
def resolveController (scope : Scope σ) (controller : Option String) (names : List String)
    (defaults : Params) : Except DeclarationFault (Option String) :=
  match controller with
  | some c => do
    checkController c
    return some (scope.qualifyController c)
  | none =>
    if names.contains "controller" then .ok none
    else
      match defaults.get? "controller" with
      | some c => .ok (some c)
      | none => .error .missingController

def resolveActionName (action : Option String) (names : List String) (defaults : Params) :
    Except DeclarationFault (Option String) :=
  match action with
  | some a => .ok (some a)
  | none =>
    if names.contains "action" then .ok none
    else
      match defaults.get? "action" with
      | some a => .ok (some a)
      | none => .error .missingAction

def insertSome (key : String) (value : Option String) (d : Params) : Params :=
  match value with
  | some v => d.insert key v
  | none => d

/-- An endpoint, and the defaults with its controller and action among them. -/
structure Resolved where
  endpoint : Endpoint
  defaults : Params

def resolveAction (scope : Scope σ) (controller action : Option String) (names : List String)
    (defaults : Params) : Except DeclarationFault Resolved := do
  let controller ← resolveController scope controller names defaults
  let action ← resolveActionName action names defaults
  let endpoint : Endpoint :=
    match controller, action with
    | some c, some a =>
      if names.contains "controller" || names.contains "action" then .dynamic else .action c a
    | _, _ => .dynamic
  return ⟨endpoint, insertSome "action" action (insertSome "controller" controller defaults)⟩

/-- A redirect goes before a handle, and both before a controller and action. -/
def resolveEndpoint (d : Declaration σ) (scope : Scope σ) (names : List String) :
    Except DeclarationFault Resolved :=
  let defaults := scope.defaults.override d.defaults
  match d.redirect, d.handle with
  | some r, _ => .ok ⟨.redirect r, defaults⟩
  | none, some h => .ok ⟨.handle h, defaults⟩
  | none, none => resolveAction scope d.targetParts.1 d.targetParts.2 names defaults

/-- A constraint of a scope applies to a route unless it is about a path segment that the route
does not have. -/
def appliesTo (names : List String) (key : String) (c : Constraint σ) : Bool :=
  names.contains key || (RequestAttribute.ofKey? key).isSome || c.segmentRegex?.isNone

def mergedConstraints (d : Declaration σ) (scope : Scope σ) (names : List String) :
    List (String × Constraint σ) :=
  mergeEntries (scope.constraints.filter fun e => appliesTo names e.1 e.2) d.constraints

def checkKeys (keys : List String) : Except DeclarationFault Unit :=
  match keys.find? fun k => k.toList.contains ':' with
  | some k => .error (.colonInKey k)
  | none => .ok ()

/-- The expression that a constraint puts into the path. -/
def inPath? (names : List String) (e : String × Constraint σ) : Option (String × String) :=
  if names.contains e.1 then e.2.segmentRegex?.map fun source => (e.1, source) else none

/-- The expressions for parts of the path; those of constraints go before the others. -/
def requirementsIn (d : Declaration σ) (names : List String)
    (constraints : List (String × Constraint σ)) : Dict String :=
  (Dict.ofList d.requirements).insertAll (constraints.filterMap (inPath? names))

/-- The constraints that are checked after the path. -/
def boundConstraints (names : List String) (constraints : List (String × Constraint σ)) :
    List (BoundConstraint σ) :=
  (constraints.filter fun e => (inPath? names e).isNone).map fun e =>
    BoundConstraint.bind e.1 e.2 names

def boundPredicates : List (Constraint σ) → Except RoutingError (List (BoundConstraint σ))
  | [] => .ok []
  | .predicate p :: rest => do
    let bound ← boundPredicates rest
    return BoundConstraint.ofPredicate p :: bound
  | c :: _ => .error (.constraint (.notPredicate c.describe))

def isSegmentTarget : ConstraintTarget → Bool
  | .segment _ => true
  | _ => false

/-- Leaving out all groups of the pattern and looking at none of its segments again. -/
def templateOf (p : Pattern) (constraints : List (BoundConstraint σ)) :
    Option (List TemplatePart) :=
  if p.segments.groupsCapture && !p.segments.repeatsRequired &&
      !constraints.any fun c => isSegmentTarget c.target then some p.segments.template
  else none

/-- The scope's filter lets the action of the declaration through. -/
def isPermitted (d : Declaration σ) (scope : Scope σ) : Bool :=
  match d.targetParts.2 with
  | some action => scope.permits action
  | none => true

def liftFault {α : Type} (e : Except DeclarationFault α) : Except RoutingError α :=
  e.mapError .declaration

def liftPattern {α : Type} (e : Except PatternError α) : Except RoutingError α :=
  e.mapError .pattern

def buildPermitted (d : Declaration σ) (scope : Scope σ) (settings : Settings)
    (precedence : Nat) : Except RoutingError (Route σ) := do
  let path := d.scopedPath scope settings
  let names ← liftPattern (Pattern.parseNames path)
  let name ← liftFault (d.qualifiedName scope)
  let resolved ← liftFault (d.resolveEndpoint scope names)
  let constraints := d.mergedConstraints scope names
  liftFault (checkKeys (constraints.map (·.1) ++ resolved.defaults.keys ++
    d.requirements.map (·.1)))
  let predicates ← boundPredicates d.requestConstraints
  let bound := boundConstraints names constraints ++ predicates
  let pattern ← liftPattern (Pattern.compile path (d.requirementsIn names constraints) d.anchored)
  return {
    name, pattern, precedence
    verbs := d.verbs
    constraints := bound
    defaults := resolved.defaults
    endpoint := resolved.endpoint
    template := templateOf pattern bound }

/-- The route of the declaration in a scope; none when the scope filters it out. -/
def build (d : Declaration σ) (scope : Scope σ) (settings : Settings) (precedence : Nat) :
    Except RoutingError (Option (Route σ)) :=
  if d.isPermitted scope then (d.buildPermitted scope settings precedence).map some else .ok none

end Declaration

end RouteEngine
