import RouteEngine.Decimal.Nearest
import RouteEngine.Json.Basic
import RouteEngine.Text.Hex
import RouteEngine.Text.Numeral
import RouteEngine.Toml.Lexical

/-!
Numbers, dates and times of TOML. A whole number fits a signed 64-bit word. A date or time is
given back as text in canonical form.
-/

namespace RouteEngine.Toml

/-- Digits between which single underscores may stand; they are left out of what is read. -/
def digitRun (isDigit : Char → Bool) : List Char → List Char × List Char
  | [] => ([], [])
  | '_' :: d :: r =>
    if isDigit d then
      let (ds, rest) := digitRun isDigit r
      (d :: ds, rest)
    else ([], '_' :: d :: r)
  | d :: r =>
    if isDigit d then
      let (ds, rest) := digitRun isDigit r
      (d :: ds, rest)
    else ([], d :: r)

/-- A run that starts with a digit. -/
def digits? (isDigit : Char → Bool) (cs : List Char) : Option (List Char × List Char) :=
  match cs with
  | d :: _ => if isDigit d then some (digitRun isDigit cs) else none
  | [] => none

/-- Without leading zeros. -/
def wholeDigits? (cs : List Char) : Option (List Char × List Char) :=
  match cs with
  | '0' :: r => some (['0'], r)
  | cs => digits? Char.isDigit cs

def fraction? : List Char → Option (List Char × List Char)
  | '.' :: r => digits? Char.isDigit r
  | _ => none

def exponent? : List Char → Option (Int × List Char)
  | c :: r =>
    if c = 'e' || c = 'E' then
      match r with
      | '-' :: r => (digits? Char.isDigit r).map fun p => (-(Text.digitsValue p.1 : Int), p.2)
      | '+' :: r => (digits? Char.isDigit r).map fun p => ((Text.digitsValue p.1 : Int), p.2)
      | r => (digits? Char.isDigit r).map fun p => ((Text.digitsValue p.1 : Int), p.2)
    else none
  | [] => none

def signBit : Nat := Nat.pow 2 63

/-- What is no finite number is absent from the document. -/
def floatValue (negative : Bool) (bits : Nat) : Json :=
  if Decimal.infinityBits ≤ bits then .null
  else .number (.float (UInt64.ofNat (if negative then signBit + bits else bits)))

/-- A decimal fraction; a positive one has to be finite. -/
def float? (negative : Bool) (cs : List Char) : Option (Json × List Char) := do
  let (whole, r) ← wholeDigits? cs
  let (fraction, exponent, r) ←
    match fraction? r with
    | some (fraction, r) =>
      match exponent? r with
      | some (e, r) => some (fraction, e, r)
      | none => some (fraction, 0, r)
    | none => (exponent? r).map fun p => ([], p.1, p.2)
  let bits := Decimal.ofScientificBits (Text.digitsValue (whole ++ fraction))
    (exponent - fraction.length)
  if !negative && bits = Decimal.infinityBits then none
  return (floatValue negative bits, r)

def minWord : Int := -9223372036854775808

def maxWord : Int := 9223372036854775807

def whole? (i : Int) : Option Json :=
  if minWord ≤ i ∧ i ≤ maxWord then some (.number (.int i)) else none

def decimal? (negative : Bool) (cs : List Char) : Option (Json × List Char) := do
  let (ds, r) ← wholeDigits? cs
  let n : Int := Text.digitsValue ds
  let v ← whole? (if negative then -n else n)
  return (v, r)

def isBelow (base : Nat) (c : Char) : Bool := (Text.hexValue? c).any (· < base)

/-- A whole number in another base than ten. -/
def based? (base : Nat) (cs : List Char) : Option (Json × List Char) := do
  let (ds, r) ← digits? (isBelow base) cs
  let v ← whole? (ds.foldl (fun n d => base * n + (Text.hexValue? d).getD 0) 0 : Nat)
  return (v, r)

def number? (negative : Bool) (cs : List Char) : Option (Json × List Char) :=
  match cs with
  | 'i' :: 'n' :: 'f' :: r => some (.null, r)
  | 'n' :: 'a' :: 'n' :: r => some (.null, r)
  | cs => (float? negative cs).orElse fun _ => decimal? negative cs

/-- A digit pair that is no more than `most`. -/
def pair? (most : Nat) : List Char → Option (List Char × List Char)
  | a :: b :: r =>
    if a.isDigit && b.isDigit && Text.digitsValue [a, b] ≤ most then some ([a, b], r) else none
  | _ => none

def daysIn (year month : Nat) : Nat :=
  if month = 2 then if year % 4 = 0 ∧ (year % 100 ≠ 0 ∨ year % 400 = 0) then 29 else 28
  else if month = 4 ∨ month = 6 ∨ month = 9 ∨ month = 11 then 30
  else 31

def date? : List Char → Option (List Char × List Char)
  | a :: b :: c :: d :: '-' :: r =>
    if [a, b, c, d].all Char.isDigit then
      match pair? 12 r with
      | some (month, '-' :: r) => do
        let (day, r) ← pair? 31 r
        let m := Text.digitsValue month
        let n := Text.digitsValue day
        if m = 0 ∨ n = 0 ∨ daysIn (Text.digitsValue [a, b, c, d]) m < n then none
        return (a :: b :: c :: d :: '-' :: month ++ '-' :: day, r)
      | _ => none
    else none
  | _ => none

/-- Nine digits of a second at most, and no zeros at their end. -/
def secondFraction : List Char → List Char × List Char
  | '.' :: r =>
    match r.takeWhile Char.isDigit with
    | [] => ([], '.' :: r)
    | ds =>
      let kept := ((ds.take 9).reverse.dropWhile (· = '0')).reverse
      (if kept.isEmpty then [] else '.' :: kept, r.dropWhile Char.isDigit)
  | cs => ([], cs)

def time? (cs : List Char) : Option (List Char × List Char) :=
  match pair? 23 cs with
  | some (hour, ':' :: r) =>
    match pair? 59 r with
    | some (minute, ':' :: r) => do
      let (second, r) ← pair? 60 r
      let (fraction, r) := secondFraction r
      return (hour ++ ':' :: minute ++ ':' :: second ++ fraction, r)
    | _ => none
  | _ => none

/-- The distance to Greenwich time; a distance of nothing is ahead of it. -/
def offset : List Char → List Char × List Char
  | [] => ([], [])
  | c :: r =>
    if c = 'Z' || c = 'z' then (['Z'], r)
    else if c = '+' || c = '-' then
      match pair? 23 r with
      | some (hour, ':' :: r') =>
        match pair? 59 r' with
        | some (minute, r') =>
          let sign := if hour ++ minute = ['0', '0', '0', '0'] then '+' else c
          (sign :: hour ++ ':' :: minute, r')
        | none => ([], c :: r)
      | _ => ([], c :: r)
    else ([], c :: r)

def isTimeMark (c : Char) : Bool := c = 'T' || c = 't' || c = ' '

def dateTime? (cs : List Char) : Option (List Char × List Char) :=
  match date? cs with
  | none => time? cs
  | some (date, r) =>
    match r with
    | c :: r' =>
      if isTimeMark c then
        match time? r' with
        | some (time, r') =>
          let (zone, r') := offset r'
          some (date ++ 'T' :: time ++ zone, r')
        | none => some (date, r)
      else some (date, r)
    | [] => some (date, [])

def scalar? (cs : List Char) : Option (Json × List Char) :=
  match cs with
  | '"' :: _ => (string? cs).map fun p => (.string p.1, p.2)
  | '\'' :: _ => (string? cs).map fun p => (.string p.1, p.2)
  | 't' :: 'r' :: 'u' :: 'e' :: r => some (.bool true, r)
  | 'f' :: 'a' :: 'l' :: 's' :: 'e' :: r => some (.bool false, r)
  | '0' :: 'x' :: r => based? 16 r
  | '0' :: 'o' :: r => based? 8 r
  | '0' :: 'b' :: r => based? 2 r
  | '+' :: r => number? false r
  | '-' :: r => number? true r
  | cs =>
    match dateTime? cs with
    | some (t, r) => some (.string (String.ofList t), r)
    | none => number? false cs

end RouteEngine.Toml
