import RouteEngine.Dict
import RouteEngine.Outcome
import RouteEngine.Request.Address
import RouteEngine.Request.Header

/-!
Requests as far as routing looks at them. A host splits into labels; the last of them are the
domain and the others the subdomain, unless the host is an address.
-/

namespace RouteEngine

open Text

structure Request where
  method : Method := Method.get
  /-- Still escaped. -/
  path : String := "/"
  /-- Without its question mark. -/
  query : String := ""
  host : String := "localhost"
  explicitPort : Option Nat := none
  scheme : String := "http"
  headers : Headers := .empty
  remoteIp : Option String := none
  /-- What the surrounding program knows about the request. -/
  attributes : Dict String := .empty
  deriving Repr, Inhabited

namespace Request

def isSecure (r : Request) : Bool := r.scheme = "https"

def standardPort (r : Request) : Nat := if r.isSecure then 443 else 80

def port (r : Request) : Nat := r.explicitPort.getD r.standardPort

/-- The port unless it is the standard one. -/
def optionalPort (r : Request) : Option Nat :=
  if r.port = r.standardPort then none else some r.port

def protocol (r : Request) : String := r.scheme ++ "://"

/-- A port as it follows a host; nothing for none. -/
def portText : Option Nat → String
  | some p => ":" ++ toString p
  | none => ""

def hostWithPort (r : Request) : String := r.host ++ portText r.optionalPort

def labels (r : Request) : List (List Char) := pieces '.' r.host.toList

def hostIsAddress (r : Request) : Bool := Address.isAddress r.host

/-- The last `tldLength + 1` labels of the host, when it has them and is no address. The sum is at
most the number of labels. -/
def domain (r : Request) (tldLength : UInt64) : Option String :=
  if r.hostIsAddress || r.labels.length ≤ tldLength.toNat then none
  else some (String.ofList (join ['.'] (r.labels.drop (r.labels.length - (tldLength.toNat + 1)))))

/-- The labels before the last `keep`. -/
def labelsBefore (r : Request) (keep : UInt64) : String :=
  if r.labels.length ≤ keep.toNat then ""
  else String.ofList (join ['.'] (r.labels.take (r.labels.length - keep.toNat)))

/-- The labels before the domain. The number of labels to keep is computed before the labels are
counted, so that it may overflow. -/
def subdomain (r : Request) (tldLength : UInt64) : Outcome String :=
  if r.hostIsAddress then .returned "" else (Word.add tldLength 1).map r.labelsBefore

/-- The labels before the domain in a build that does not check its sums. -/
def uncheckedSubdomain (r : Request) (tldLength : UInt64) : String :=
  if r.hostIsAddress then "" else r.labelsBefore (tldLength + 1)

def header? (r : Request) (name : String) : Option String := r.headers.text? name

def attribute? (r : Request) (key : String) : Option String := r.attributes.get? key

def url (r : Request) : String :=
  let base := r.protocol ++ r.hostWithPort ++ r.path
  if r.query = "" then base else base ++ "?" ++ r.query

/-- A host with its port, if one follows. The brackets of an address keep its colons together;
text after them that is no port is dropped. -/
def splitHost (value : String) : String × Option Nat :=
  let cs := value.toList
  let bracketed :=
    match cs with
    | '[' :: r => splitFirst ']' r
    | _ => none
  match bracketed with
  | some (host, tail) =>
    let port :=
      match tail with
      | ':' :: p => port? (String.ofList p)
      | _ => none
    (String.ofList ('[' :: host ++ [']']), port)
  | none =>
    match splitLast ':' cs with
    | some (host, p) =>
      match port? (String.ofList p) with
      | some port => (String.ofList host, some port)
      | none => (value, none)
    | none => (value, none)

/-- Sets the host, and the port if one follows it. -/
def setHost (r : Request) (value : String) : Request :=
  let (host, port) := splitHost value
  { r with host, explicitPort := port.or r.explicitPort }

/-- Sets the scheme, which may be followed by `://`. -/
def setScheme (r : Request) (scheme : String) : Request :=
  let trimmed := trimEndWord [':', '/', '/'] scheme.toList
  { r with scheme := String.ofList (trimmed.map Char.toLower) }

def setHeader (r : Request) (name value : String) : Request :=
  { r with headers := r.headers.setValid name value }

def addAttributes (r : Request) (entries : List (String × String)) : Request :=
  { r with attributes := r.attributes.insertAll entries }

/-- A path with the query that may follow it. -/
def splitQuery (target : String) : String × String :=
  match splitFirst '?' target.toList with
  | some (path, query) => (String.ofList path, String.ofList query)
  | none => (target, "")

def setTarget (r : Request) (target : String) : Request :=
  let (path, query) := splitQuery target
  { r with path, query }

end Request

end RouteEngine
