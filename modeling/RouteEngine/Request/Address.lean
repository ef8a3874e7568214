import RouteEngine.Text.Hex
import RouteEngine.Text.Numeral
import RouteEngine.Text.Split

/-!
Internet addresses as text: four decimal octets, or eight hexadecimal groups of which one run of
zeros may be left out and the last two may be written as octets.
-/

namespace RouteEngine.Address

open Text

def octet? (ds : List Char) : Option Nat :=
  if ds.isEmpty || 3 < ds.length || !ds.all Char.isDigit then none
  else if ds.head? = some '0' && 1 < ds.length then none
  else if digitsValue ds < 256 then some (digitsValue ds) else none

def octets? (s : List Char) : Option (List Nat) :=
  let parts := (pieces '.' s).mapM octet?
  parts.bind fun os => if os.length = 4 then some os else none

def group? (ds : List Char) : Option Nat :=
  if ds.isEmpty || 4 < ds.length then none else hexNumber? ds

/-- Groups between colons; the last piece may be four octets, which fill two groups. -/
def groups? (octetsAllowed : Bool) : List (List Char) → Option (List Nat)
  | [] => some []
  | [p] =>
    match group? p with
    | some g => some [g]
    | none =>
      if octetsAllowed then
        match octets? p with
        | some [a, b, c, d] => some [a * 256 + b, c * 256 + d]
        | _ => none
      else none
  | p :: ps => do
    let g ← group? p
    let gs ← groups? octetsAllowed ps
    return g :: gs

def side? (octetsAllowed : Bool) (s : List Char) : Option (List Nat) :=
  if s.isEmpty then some [] else groups? octetsAllowed (pieces ':' s)

/-- The eight groups of an address. The double colon stands for at least one group. -/
def eightGroups? (s : List Char) : Option (List Nat) :=
  match splitAtWord [':', ':'] s with
  | none => (side? true s).bind fun gs => if gs.length = 8 then some gs else none
  | some (left, right) => do
    let a ← side? false left
    let b ← side? true right
    if a.length + b.length ≤ 7 then
      some (a ++ List.replicate (8 - a.length - b.length) 0 ++ b)
    else none

def isFourOctets (s : List Char) : Bool := (octets? s).isSome

def isEightGroups (s : List Char) : Bool := (eightGroups? s).isSome

/-- An address of either kind, the longer one also in brackets. -/
def isAddress (host : String) : Bool :=
  let cs := host.toList
  isFourOctets cs || isEightGroups cs ||
    isEightGroups (trimEnd (· = ']') (trimStart (· = '[') cs))

/-- The length of the run of zeros at the head of a list. -/
def zeroRun : List Nat → Nat
  | 0 :: r => zeroRun r + 1
  | _ => 0

/-- Where the longest run of zeros begins and how long it is, the first of equal ones. -/
def longestZeros (index : Nat) : List Nat → Nat × Nat
  | [] => (0, 0)
  | g :: r =>
    let here := zeroRun (g :: r)
    let later := longestZeros (index + 1) r
    if later.2 ≤ here && 0 < here then (index, here) else later

def groupText (gs : List Nat) : List Char := join [':'] (gs.map lowerHex)

/-- The text of an address with its longest run of two or more zero groups left out. -/
def groupsText (gs : List Nat) : List Char :=
  let (first, length) := longestZeros 0 gs
  if length < 2 then groupText gs
  else groupText (gs.take first) ++ [':', ':'] ++ groupText (gs.drop (first + length))

def octetsText (os : List Nat) : List Char := join ['.'] (os.map fun n => Nat.toDigits 10 n)

end RouteEngine.Address
