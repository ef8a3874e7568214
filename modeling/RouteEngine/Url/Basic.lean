import RouteEngine.Text.Identifier
import RouteEngine.Url.Host

/-!
Absolute URLs with a host. Reading one brings it into its normal form: blanks around it and line
breaks within go away, the scheme and host are in lower case, the standard port is left out, dots
are walked along the path, and what a path or query may not hold is escaped.
-/

namespace RouteEngine

open Text

structure Url where
  scheme : String
  host : String
  port : Option Nat
  path : String
  query : Option String
  deriving DecidableEq, Repr

namespace Url

/-- What the scheme says about the rest of the URL. -/
inductive SchemeKind
  | web
  | file
  | other
  deriving DecidableEq, Repr

def schemeKind (scheme : String) : SchemeKind :=
  if ["http", "https", "ws", "wss", "ftp"].contains scheme then .web
  else if scheme = "file" then .file else .other

def standardPort (scheme : String) : Option Nat :=
  match scheme with
  | "http" => some 80
  | "ws" => some 80
  | "https" => some 443
  | "wss" => some 443
  | "ftp" => some 21
  | _ => none

/-- The scheme in lower case, and what follows its colon. -/
def scheme? (cs : List Char) : Option (String × List Char) :=
  match splitFirst ':' cs with
  | some (c :: s, r) =>
    if c.isAlpha && s.all isSchemeChar then some (String.ofList ((c :: s).map Char.toLower), r)
    else none
  | _ => none

def cleaned (text : String) : List Char :=
  let trimmed := trim (fun c => c.toNat ≤ 0x20) text.toList
  trimmed.filter fun c => !(c = '\t' || c = '\n' || c = '\r')

def endsAuthority (special : Bool) (c : Char) : Bool :=
  c = '/' || c = '?' || c = '#' || (special && c = '\\')

/-- The host part ends at a colon that no brackets enclose. -/
def splitPort : (bracketed : Bool) → List Char → List Char × Option (List Char)
  | _, [] => ([], none)
  | b, c :: r =>
    if c = ':' && !b then ([], some r)
    else
      let (host, port) := splitPort (if c = '[' then true else if c = ']' then false else b) r
      (c :: host, port)

/-- The port, none for the standard one; fails for what is no port. -/
def readPort (scheme : String) : Option (List Char) → Option (Option Nat)
  | none => some none
  | some ds =>
    if !ds.all Char.isDigit || maxPort < digitsValue ds then none
    else if ds.isEmpty || standardPort scheme = some (digitsValue ds) then some none
    else some (some (digitsValue ds))

def isPathChar (c : Char) : Bool :=
  0x20 < c.toNat && c.toNat < 0x7F && !(['"', '<', '>', '`', '#', '?', '\x7b', '\x7d'].contains c)

def isQueryChar (special : Bool) (c : Char) : Bool :=
  0x20 < c.toNat && c.toNat < 0x7F && !(['"', '#', '<', '>'].contains c) && !(special && c = '\'')

def lowered (s : List Char) : List Char := s.map Char.toLower

def isOneDot (s : List Char) : Bool := [".", "%2e"].contains (String.ofList (lowered s))

def isTwoDots (s : List Char) : Bool :=
  ["..", ".%2e", "%2e.", "%2e%2e"].contains (String.ofList (lowered s))

/-- A drive letter at the root of a file path, which no dots lead out of. -/
def isDrive (s : List Char) : Bool :=
  match s with
  | [c, d] => c.isAlpha && (d = ':' || d = '|')
  | _ => false

/-- Walks the segments, given those gone through last first. -/
def walk (file : Bool) : (done : List (List Char)) → List (List Char) → List (List Char)
  | done, [] => done
  | done, s :: rest =>
    let closing := if rest.isEmpty then [[]] else []
    if isTwoDots s then
      let up :=
        match done with
        | [d] => if file && isDrive d then [d] else []
        | _ :: ds => ds
        | [] => []
      walk file (closing ++ up) rest
    else if isOneDot s then walk file (closing ++ done) rest
    else
      let s := Escape.escapeWith isPathChar s
      let s := if file && done.isEmpty && isDrive s then s.take 1 ++ [':'] else s
      walk file (s :: done) rest

def pathText (kind : SchemeKind) (cs : List Char) : List Char :=
  let slashes := if kind = .other then cs else cs.map fun c => if c = '\\' then '/' else c
  match kind, slashes with
  | .other, [] => []
  | kind, slashes =>
    let raw := pieces '/' ((dropPrefix? ['/'] slashes).getD slashes)
    let walked := (walk (kind = .file) [] raw).reverse
    let text := '/' :: join ['/'] walked
    if kind = .file then '/' :: trimStart (· = '/') text else text

/-- What follows the authority: the path, and the query up to a fragment. -/
def finish (kind : SchemeKind) (scheme host : String) (port : Option Nat) (cs : List Char) : Url :=
  let noFragment := cs.takeWhile (· ≠ '#')
  let path := noFragment.takeWhile (· ≠ '?')
  let query := noFragment.drop (path.length + 1)
  { scheme, host, port
    path := String.ofList (pathText kind path)
    query :=
      if path.length < noFragment.length then
        some (String.ofList (Escape.escapeWith (isQueryChar (kind ≠ .other)) query))
      else none }

/-- Drops the user part, which must be followed by a host if there is any. -/
def dropUser (authority : List Char) : Option (List Char) :=
  match splitLast '@' authority with
  | none => some authority
  | some (_, host) => if host.isEmpty then none else some host

def withAuthority (kind : SchemeKind) (scheme : String) (cs : List Char) : Option Url := do
  let special := kind ≠ .other
  let authority := cs.takeWhile fun c => !endsAuthority special c
  let rest := cs.dropWhile fun c => !endsAuthority special c
  let address ← dropUser authority
  let (name, port) := splitPort false address
  let host ← host? special name
  if host.isEmpty then none
  else
    let port ← readPort scheme port
    return finish kind scheme (String.ofList host) port rest

def withFileHost (cs : List Char) : Option Url := do
  let name := cs.takeWhile fun c => !endsAuthority true c
  let rest := cs.dropWhile fun c => !endsAuthority true c
  if isDrive name then none
  else
    let host ← host? true name
    if host = "localhost".toList then none
    else return finish .file "file" (String.ofList host) none rest

/-- Reads an absolute URL with a host. -/
def parse? (text : String) : Option Url := do
  let (scheme, r) ← scheme? (cleaned text)
  match schemeKind scheme with
  | .web => withAuthority .web scheme (r.dropWhile fun c => c = '/' || c = '\\')
  | .file =>
    match r with
    | a :: b :: r =>
      if (a = '/' || a = '\\') && (b = '/' || b = '\\') then withFileHost r else none
    | _ => none
  | .other =>
    match r with
    | '/' :: '/' :: r => withAuthority .other scheme r
    | _ => none

end Url

end RouteEngine
