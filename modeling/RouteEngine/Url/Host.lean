import RouteEngine.Regex.Category
import RouteEngine.Request.Address
import RouteEngine.Escape.Percent
import RouteEngine.Url.Punycode

/-!
Hosts of URLs. The host of a special scheme is a domain, four octets or a bracketed address; a
domain whose last label is a number has to be octets, in any of the ways to write them. Any other
scheme takes a host as it stands, with controls escaped.
-/

namespace RouteEngine.Url

open Text

def isForbiddenHostChar (c : Char) : Bool :=
  ['\x00', '\t', '\n', '\r', ' ', '#', '/', ':', '<', '>', '?', '@', '[', '\\', ']', '^',
    '|'].contains c

def isForbiddenDomainChar (c : Char) : Bool :=
  isForbiddenHostChar c || c.toNat < 0x20 || c = '%' || c.toNat = 0x7F

/-- The wide forms of printable ASCII stand for the plain ones. -/
def narrow (c : Char) : Char :=
  if 0xFF01 ≤ c.toNat ∧ c.toNat ≤ 0xFF5E then Char.ofNat (c.toNat - 0xFEE0) else c

def foldChar (c : Char) : Char :=
  let c := narrow c
  if c.toNat < 128 then c.toLower else Char.ofNat (Regex.foldOf c.toNat)

def isFullStop (c : Char) : Bool :=
  c = '.' || c.toNat = 0x3002 || c.toNat = 0xFF0E || c.toNat = 0xFF61

def asciiLabel (label : List Char) : List Char :=
  if label.all fun c => c.toNat < 128 then label else "xn--".toList ++ Punycode.encode label

/-- The ASCII form of a domain. -/
def asciiDomain? (domain : List Char) : Option (List Char) :=
  let folded := domain.map fun c => if isFullStop c then '.' else foldChar c
  let shown := folded.filter fun c => c.toNat ≠ 0xAD
  if shown.any isForbiddenDomainChar then none
  else some (join ['.'] ((pieces '.' shown).map asciiLabel))

def baseValue (base : Nat) (ds : List Char) : Option Nat :=
  ds.foldl (fun acc c => acc.bind fun n =>
    (hexValue? c).bind fun d => if d < base then some (base * n + d) else none) (some 0)

/-- A part of an address in octets: decimal, octal after a zero or hexadecimal after `0x`. -/
def octetNumber? (part : List Char) : Option Nat :=
  match part with
  | [] => none
  | '0' :: 'x' :: r => baseValue 16 r
  | '0' :: 'X' :: r => baseValue 16 r
  | ['0'] => some 0
  | '0' :: r => baseValue 8 r
  | r => baseValue 10 r

def dropEmptyLast (ps : List (List Char)) : List (List Char) :=
  if ps.getLast? = some [] then ps.dropLast else ps

def endsInNumber (domain : List Char) : Bool :=
  match (dropEmptyLast (pieces '.' domain)).getLast? with
  | none => false
  | some last => (!last.isEmpty && last.all Char.isDigit) || (octetNumber? last).isSome

/-- Up to four parts, the last of which fills all octets that the others leave. -/
def octetAddress? (domain : List Char) : Option (List Nat) := do
  let ns ← (dropEmptyLast (pieces '.' domain)).mapM octetNumber?
  let last ← ns.getLast?
  let front := ns.dropLast
  if 3 < front.length || front.any (255 < ·) || Nat.pow 256 (4 - front.length) ≤ last then none
  else
    let rest := (List.range (4 - front.length)).reverse.map fun i => last / Nat.pow 256 i % 256
    return front ++ rest

def bracketedHost? (host : List Char) : Option (List Char) := do
  let inner ← dropSuffix? [']'] host
  let gs ← Address.eightGroups? inner
  return '[' :: Address.groupsText gs ++ [']']

def domainHost? (host : List Char) : Option (List Char) := do
  let decoded ← Escape.unescapeChars host
  let domain ← asciiDomain? decoded
  if domain.isEmpty then none
  else if endsInNumber domain then
    let os ← octetAddress? domain
    return Address.octetsText os
  else return domain

def isControl (c : Char) : Bool := c.toNat < 0x20 || c.toNat = 0x7F

def opaqueHost? (host : List Char) : Option (List Char) :=
  if host.any isForbiddenHostChar then none
  else some (Escape.escapeWith (fun c => c.toNat < 0x80 && !isControl c) host)

def host? (special : Bool) (host : List Char) : Option (List Char) :=
  match host with
  | '[' :: r => bracketedHost? r
  | _ => if special then domainHost? host else opaqueHost? host

end RouteEngine.Url
