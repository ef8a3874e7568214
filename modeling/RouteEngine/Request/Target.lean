import RouteEngine.Request.Basic
import RouteEngine.Text.Identifier

/-!
Request targets as a server receives them: an origin form (a path), an absolute form, an
authority alone, or an asterisk. No part is brought into a normal form.
-/

namespace RouteEngine.Request

open Text

/-- The parts of a target. The path is empty for an authority alone. -/
structure Target where
  scheme : Option String
  authority : Option String
  path : String
  query : Option String
  deriving DecidableEq, Repr

namespace Target

def isUriChar (c : Char) : Bool :=
  c.isAlphanum || ['!', '#', '$', '&', '\'', '(', ')', '*', '+', ',', '-', '.', '/', ':', ';',
    '=', '?', '@', '[', ']', '_', '~'].contains c

/-- What a scan of an authority has seen since the last user part or bracket. -/
structure Scan where
  colons : Nat := 0
  opened : Bool := false
  closed : Bool := false
  percent : Bool := false
  afterUser : Bool := false

/-- The authority at the head of the text and what follows it; `none` if it is malformed. -/
def authority? (s : Scan) : List Char → Option (List Char × List Char)
  | [] => if done s then some ([], []) else none
  | c :: r =>
    let next (s : Scan) := (authority? s r).map fun p => (c :: p.1, p.2)
    if c = '/' || c = '?' || c = '#' then if done s then some ([], c :: r) else none
    else if c = ':' then
      if 8 ≤ s.colons then none else next { s with colons := s.colons + 1, afterUser := false }
    else if c = '[' then
      if s.percent || s.opened then none else next { s with opened := true, afterUser := false }
    else if c = ']' then
      if !s.opened || s.closed then none
      else next { s with closed := true, colons := 0, percent := false, afterUser := false }
    else if c = '@' then next { s with colons := 0, percent := false, afterUser := true }
    else if c = '%' then next { s with percent := true, afterUser := false }
    else if isUriChar c then next { s with afterUser := false }
    else none
where
  done (s : Scan) : Bool := s.opened == s.closed && s.colons ≤ 1 && !s.afterUser && !s.percent

def isPathChar (c : Char) : Bool :=
  let n := c.toNat
  n = 0x21 || n = 0x22 || (0x24 ≤ n && n ≤ 0x3B) || n = 0x3D || (0x40 ≤ n && n ≤ 0x5F) ||
    (0x61 ≤ n && n ≠ 0x7F)

def isQueryChar (c : Char) : Bool :=
  let n := c.toNat
  n = 0x21 || (0x24 ≤ n && n ≤ 0x3B) || n = 0x3D || (0x3F ≤ n && n ≠ 0x7F)

/-- The path and query up to a fragment. -/
def pathAndQuery? (cs : List Char) : Option (String × Option String) :=
  let path := cs.takeWhile fun c => c ≠ '?' && c ≠ '#'
  let rest := cs.dropWhile fun c => c ≠ '?' && c ≠ '#'
  let shown := if path.isEmpty then "/" else String.ofList path
  if !path.all isPathChar then none
  else
    match rest with
    | '?' :: r =>
      let query := r.takeWhile (· ≠ '#')
      if query.all isQueryChar then some (shown, some (String.ofList query)) else none
    | _ => some (shown, none)

/-- A scheme with the text after `://`. `none` is a scheme that is too long. -/
def scheme? (cs : List Char) : Option (Option String × List Char) :=
  let name := cs.takeWhile isSchemeChar
  match dropPrefix? [':', '/', '/'] (cs.drop name.length) with
  | none => some (none, cs)
  | some r =>
    if 64 < name.length then none
    else
      let lower := name.map Char.toLower
      let known := lower = "http".toList || lower = "https".toList
      some (some (String.ofList (if known then lower else name)), r)

def ofAuthority? (cs : List Char) : Option Target :=
  match authority? {} cs with
  | some (a, []) => some ⟨none, some (String.ofList a), "", none⟩
  | _ => none

/-- An authority is required after a scheme. -/
def parse? (text : String) : Option Target :=
  match text.toList with
  | [] => none
  | ['*'] => some ⟨none, none, "*", none⟩
  | '/' :: r => (pathAndQuery? ('/' :: r)).map fun p => ⟨none, none, p.1, p.2⟩
  | cs =>
    match scheme? cs with
    | none => none
    | some (none, cs) => ofAuthority? cs
    | some (some scheme, r) =>
      match authority? {} r with
      | some (a :: as, rest) =>
        (pathAndQuery? rest).map fun p => ⟨some scheme, some (String.ofList (a :: as)), p.1, p.2⟩
      | _ => none

/-- The host of an authority, without user and port. -/
def hostOf (authority : String) : String :=
  let cs := authority.toList
  let address :=
    match splitLast '@' cs with
    | some (_, r) => r
    | none => cs
  match address with
  | '[' :: r =>
    match splitFirst ']' r with
    | some (inner, _) => String.ofList ('[' :: inner ++ [']'])
    | none => String.ofList address
  | _ => String.ofList (address.takeWhile (· ≠ ':'))

def portOf (authority : String) : Option Nat :=
  (splitLast ':' authority.toList).bind fun p => port? (String.ofList p.2)

end Target

end RouteEngine.Request
