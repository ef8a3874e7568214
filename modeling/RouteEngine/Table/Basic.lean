import RouteEngine.Route.Declaration

/-!
Tables of routes and how they are drawn. Declarations come as a tree in which a block puts its
frame around everything inside it; drawing walks the tree in order, builds each declaration in
its scope, and stops at the first that cannot be built or entered.
-/

namespace RouteEngine

/-- A run of declarations and blocks of them. -/
inductive Entries (σ : Type)
  | done
  | route (d : Declaration σ) (next : Entries σ)
  | scope (frame : ScopeFrame σ) (inner next : Entries σ)

namespace Entries

variable {σ : Type}

def append : Entries σ → Entries σ → Entries σ
  | done, es => es
  | route d next, es => route d (next.append es)
  | scope frame inner next, es => scope frame inner (next.append es)

def ofDeclarations : List (Declaration σ) → Entries σ
  | [] => done
  | d :: ds => route d (ofDeclarations ds)

/-- Every declaration with its scope, in order. -/
def inScopes (around : Scope σ) : Entries σ → List (Scope σ × Declaration σ)
  | done => []
  | route d next => (around, d) :: inScopes around next
  | scope frame inner next => inScopes (around.nest frame) inner ++ inScopes around next

end Entries

structure Table (σ : Type) where
  /-- In the order of their precedence. -/
  routes : List (Route σ)
  tldLength : UInt64

namespace Table

variable {σ : Type}

def empty (settings : Settings) : Table σ := ⟨[], settings.tldLength⟩

def size (t : Table σ) : Nat := t.routes.length

def route? (t : Table σ) (name : String) : Option (Route σ) :=
  t.routes.find? fun r => r.name = some name

def names (t : Table σ) : List String := t.routes.filterMap Route.name

/-- A route that answers the bare root for some method for which `r` answers it too. -/
def rivalRoot? (t : Table σ) (r : Route σ) : Option (Route σ) :=
  if r.isOpenRoot then t.routes.find? fun e => e.isOpenRoot && e.verbs.overlaps r.verbs else none

def isTaken (t : Table σ) : Option String → Bool
  | some name => (t.route? name).isSome
  | none => false

/-- Enters a route at the end. Names are given once, and one route at most answers the bare root
whatever the request is like. -/
def add (t : Table σ) (r : Route σ) : Except DeclarationFault (Table σ) :=
  if t.isTaken r.name then .error (.routeNameInUse (r.name.getD ""))
  else
    match t.rivalRoot? r with
    | some e => .error (.multipleRoots e.endpoint.text r.endpoint.text)
    | none => .ok { t with routes := t.routes ++ [r] }

/-- Builds a declaration and enters its route, if it has one. -/
def declare (settings : Settings) (t : Table σ) (scope : Scope σ) (d : Declaration σ) :
    Except RoutingError (Table σ) := do
  match ← d.build scope settings t.size with
  | some r => (t.add r).mapError .declaration
  | none => return t

def drawIn (settings : Settings) (scope : Scope σ) : Entries σ → Table σ →
    Except RoutingError (Table σ)
  | .done, t => .ok t
  | .route d next, t => do
    let t ← t.declare settings scope d
    drawIn settings scope next t
  | .scope frame inner next, t => do
    let t ← drawIn settings (scope.nest frame) inner t
    drawIn settings scope next t

def draw (entries : Entries σ) (settings : Settings) : Except RoutingError (Table σ) :=
  drawIn settings .root entries (.empty settings)

end Table

end RouteEngine
