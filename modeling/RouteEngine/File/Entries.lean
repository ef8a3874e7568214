import RouteEngine.File.Shape
import RouteEngine.Settings.Document
import RouteEngine.Table.Basic
import RouteEngine.Text.White

/-!
Declarations from route files. Constraints are declared in the order of their keys. Nothing in a
file reads or changes the state of a predicate.
-/

namespace RouteEngine.RouteFile

variable {σ : Type}

def isWhiteChar (c : Char) : Bool := Text.isWhite c.toNat

/-- A method in any case, between blanks. -/
def method? (text : List Char) : Option Method :=
  Method.parse? (upperAscii (String.ofList (Text.trim isWhiteChar text)))

def listedMethods : List (List Char) → Except RoutingError (List Method)
  | [] => .ok []
  | m :: rest =>
    match method? m with
    | none => .error (.configuration (.routeMethod (String.ofList m)))
    | some method => (listedMethods rest).map (method :: ·)

/-- `any`, or methods with bars between them; `GET` when nothing is said. -/
def verbs (text : Option String) : Except RoutingError Verbs :=
  match text with
  | none => .ok (.only [Method.get])
  | some t =>
    if lowerAscii t = "any" || t = "*" then .ok .any
    else (listedMethods (Text.pieces '|' t.toList)).map .only

def constraints : List (String × Json) → Except RoutingError (List (String × Constraint σ))
  | [] => .ok []
  | (key, value) :: rest => do
    let c ← Constraint.ofValue key value
    let cs ← constraints rest
    return (key, c) :: cs

def redirect (r : RedirectSpec) : Redirect :=
  let target := Redirect.ofTemplate r.target
  let target := match r.status with
    | some status => target.withStatus status
    | none => target
  { target with host := r.host }

def declaration (r : RouteSpec) : Except RoutingError (Declaration σ) := do
  let d : Declaration σ ←
    match r.mount with
    | some handle => .ok (Declaration.mount r.path handle)
    | none => (verbs r.method).map fun verbs => { path := r.path, verbs }
  let constraints ← constraints r.constraints
  return { d with
    target := r.target
    controller := r.controller
    action := r.action
    name := r.name
    redirect := r.redirect.map redirect
    constraints
    defaults := r.defaults
    format := r.format.or d.format
    shallow := r.shallow }

/-- Where both are given, the actions to leave out go before those to let through. -/
def filter (only except : Option (List String)) : Option ActionFilter :=
  (except.map .except).or (only.map .only)

def frame (b : BlockSpec) : Except RoutingError (ScopeFrame σ) := do
  let constraints ← constraints b.constraints
  return {
    path := b.path
    namePrefix := b.namePrefix
    module := b.module
    shallowPath := b.shallowPath
    shallowPrefix := b.shallowPrefix
    constraints
    defaults := b.defaults
    format := b.format
    filter := filter b.only b.except }

mutual
def entry : FileEntry → Except RoutingError (Entries σ)
  | .route r => (declaration r).map fun d => .route d .done
  | .block b inner => do
    let f ← frame b
    let inner ← entries inner
    return .scope f inner .done

def entries : List FileEntry → Except RoutingError (Entries σ)
  | [] => .ok .done
  | e :: rest => do
    let first ← entry e
    let rest ← entries rest
    return first.append rest
end

def ofJsonText (source : String) : Except ConfigurationFault (List FileEntry) :=
  match (Json.parse? source).bind fileEntries? with
  | some es => .ok es
  | none => .error (.routeFileShape "")

def ofTomlText (source : String) : Except ConfigurationFault (List FileEntry) :=
  match Toml.parse? source with
  | none => .error (.routeFileSyntax "")
  | some j =>
    match fileEntries? j with
    | some es => .ok es
    | none => .error (.routeFileShape "")

/-- The declarations of a file. Only a name that ends in `.json`, in small letters, makes it JSON. -/
def read (path source : String) : Except RoutingError (Entries σ) := do
  let es ← Except.mapError .configuration
    (if fileExtension? path = some "json" then ofJsonText source else ofTomlText source)
  entries es

end RouteEngine.RouteFile
