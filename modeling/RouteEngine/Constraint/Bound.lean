import RouteEngine.Constraint.Basic

/-!
Constraints bound to what they check. A key that the path captures means that segment; one of the
known names means an attribute of the request; any other is looked up among the attributes that
the surrounding program gave the request, and then among the captured values.
-/

namespace RouteEngine

inductive RequestAttribute
  | host
  | subdomain
  | domain
  | port
  | protocol
  | scheme
  | method
  | ip
  deriving DecidableEq, Repr

namespace RequestAttribute

def ofKey? : String → Option RequestAttribute
  | "host" => some host
  | "subdomain" => some subdomain
  | "domain" => some domain
  | "port" => some port
  | "protocol" => some protocol
  | "scheme" => some scheme
  | "method" => some method
  | "request_method" => some method
  | "ip" => some ip
  | "remote_ip" => some ip
  | _ => none

def name : RequestAttribute → String
  | host => "Host"
  | subdomain => "Subdomain"
  | domain => "Domain"
  | port => "Port"
  | protocol => "Protocol"
  | scheme => "Scheme"
  | method => "Method"
  | ip => "Ip"

/-- The value of an attribute. Sums are not checked here; `panic?` says where a build that checks
them has none. -/
def value (tldLength : UInt64) (r : Request) : RequestAttribute → Option String
  | host => some r.host
  | subdomain => some (r.uncheckedSubdomain tldLength)
  | domain => r.domain tldLength
  | port => some (toString r.port)
  | protocol => some r.protocol
  | scheme => some r.scheme
  | method => some r.method.name
  | ip => r.remoteIp

/-- The panic that computing the value ends in where sums are checked. -/
def panic? (tldLength : UInt64) (r : Request) : RequestAttribute → Option String
  | subdomain => (r.subdomain tldLength).panic?
  | _ => none

end RequestAttribute

inductive ConstraintTarget
  | segment (name : String)
  | request (a : RequestAttribute)
  | lookup (key : String)
  /-- A predicate over the whole request. -/
  | route
  deriving DecidableEq, Repr

structure BoundConstraint (σ : Type) where
  key : Option String
  target : ConstraintTarget
  constraint : Constraint σ

namespace BoundConstraint

variable {σ : Type}

def targetOf (key : String) (segments : List String) : ConstraintTarget :=
  if segments.contains key then .segment key
  else
    match RequestAttribute.ofKey? key with
    | some a => .request a
    | none => .lookup key

/-- A protocol ends in `://`. -/
def completeProtocol (p : String) : String :=
  if Text.endsWith [':', '/', '/'] p.toList then p
  else String.ofList (Text.trimEnd (· = ':') p.toList) ++ "://"

def withProtocols : Constraint σ → Constraint σ
  | .literal p => .literal (completeProtocol p)
  | .set ps => .set (ps.map completeProtocol)
  | other => other

def bind (key : String) (c : Constraint σ) (segments : List String) : BoundConstraint σ :=
  let target := targetOf key segments
  ⟨some key, target, if target = .request .protocol then withProtocols c else c⟩

def ofPredicate (p : Predicate σ) : BoundConstraint σ := ⟨none, .route, .predicate p⟩

def valueOf (tldLength : UInt64) (params : Params) (r : Request) : ConstraintTarget → Option String
  | .segment name => params.get? name
  | .request a => a.value tldLength r
  | .lookup key => (r.attribute? key).orElse fun _ => params.get? key
  | .route => none

/-- The panic that looking up what the constraint checks ends in where sums are checked. -/
def panic? (b : BoundConstraint σ) (tldLength : UInt64) (r : Request) : Option String :=
  match b.target with
  | .request a => a.panic? tldLength r
  | _ => none

def check (b : BoundConstraint σ) (tldLength : UInt64) (params : Params) (r : Request) (s : σ) :
    Bool × σ :=
  b.constraint.evaluate (valueOf tldLength params r b.target) params r s

/-- The name under which a failure is reported. -/
def label (b : BoundConstraint σ) : String := b.key.getD "<predicate>"

def describe (b : BoundConstraint σ) : String := b.key.getD "*" ++ ": " ++ b.constraint.describe

end BoundConstraint

end RouteEngine
