import RouteEngine.Json.Basic
import RouteEngine.Text.Hex
import RouteEngine.Text.Numeral

/-!
Reading JSON text. Each reader takes the characters that are left and gives back what it read
together with the rest; `none` refuses the text. Values may nest 128 levels deep.
-/

namespace RouteEngine.Json

open Text (digitsValue hexNumber?)

def isSpace (c : Char) : Bool := c = ' ' || c = '\n' || c = '\r' || c = '\t'

def skipSpace (cs : List Char) : List Char := cs.dropWhile isSpace

def simpleEscape? : Char → Option Char
  | '"' => some '"'
  | '\\' => some '\\'
  | '/' => some '/'
  | 'b' => some '\x08'
  | 'f' => some '\x0c'
  | 'n' => some '\n'
  | 'r' => some '\r'
  | 't' => some '\t'
  | _ => none

def isHighSurrogate (n : Nat) : Bool := 0xD800 ≤ n && n < 0xDC00

def isLowSurrogate (n : Nat) : Bool := 0xDC00 ≤ n && n < 0xE000

/-- The rest of a string after its opening quote. Surrogates stand only in pairs. -/
def stringBody : List Char → Option (List Char × List Char)
  | [] => none
  | '"' :: r => some ([], r)
  | '\\' :: 'u' :: a :: b :: c :: d :: r =>
    match hexNumber? [a, b, c, d] with
    | none => none
    | some n =>
      if isHighSurrogate n then
        match r with
        | '\\' :: 'u' :: e :: f :: g :: h :: r =>
          match hexNumber? [e, f, g, h] with
          | none => none
          | some m =>
            if isLowSurrogate m then
              let ch := Char.ofNat (0x10000 + (n - 0xD800) * 0x400 + (m - 0xDC00))
              (stringBody r).map fun p => (ch :: p.1, p.2)
            else none
        | _ => none
      else if isLowSurrogate n then none
      else (stringBody r).map fun p => (Char.ofNat n :: p.1, p.2)
  | '\\' :: c :: r =>
    match simpleEscape? c with
    | none => none
    | some ch => (stringBody r).map fun p => (ch :: p.1, p.2)
  | c :: r =>
    if c.toNat < 0x20 || c = '\\' then none
    else (stringBody r).map fun p => (c :: p.1, p.2)

def digitsOf (cs : List Char) : List Char × List Char := (cs.takeWhile Char.isDigit, cs.dropWhile Char.isDigit)

/-- The sign and the digits of an exponent, when one follows. -/
def exponentPart : List Char → Option (Option Int × List Char)
  | c :: r =>
    if c = 'e' || c = 'E' then
      let (negative, r) :=
        match r with
        | '-' :: r => (true, r)
        | '+' :: r => (false, r)
        | r => (false, r)
      match digitsOf r with
      | ([], _) => none
      | (ds, r) =>
        let n : Int := digitsValue ds
        some (some (if negative then -n else n), r)
    else some (none, c :: r)
  | [] => some (none, [])

def fractionPart : List Char → Option (Option (List Char) × List Char)
  | '.' :: r =>
    match digitsOf r with
    | ([], _) => none
    | (ds, r) => some (some ds, r)
  | cs => some (none, cs)

/-- The leading digits that fit an unsigned 64-bit word, and how many digits are left out. -/
def leadingWord : Nat → List Char → Nat × Nat
  | acc, [] => (acc, 0)
  | acc, d :: ds =>
    let next := 10 * acc + (d.toNat - 48)
    if next < Nat.pow 2 64 then leadingWord next ds else (acc, (d :: ds).length)

/-- Scales a binary64 number by a power of ten, one rounding per factor; `none` beyond the
largest number. -/
def scaleFloat (f : Float) (e : Int) : Nat → Option Float
  | 0 => some f
  | n + 1 =>
    if e.natAbs ≤ 308 then
      let p := Float.ofScientific 1 false e.natAbs
      if 0 ≤ e then
        let g := f * p
        if g.isInf then none else some g
      else some (f / p)
    else if f == 0.0 then some f
    else if 0 ≤ e then none
    else scaleFloat (f / Float.ofScientific 1 false 308) (e + 308) n

/-- A number that is not a whole 64-bit word: its leading digits as a word, scaled. -/
def floatOf? (negative : Bool) (whole fraction : List Char) (exponent : Int) : Option Number :=
  let (head, left) := leadingWord 0 whole
  let (significand, rest) := leadingWord head fraction
  let scale : Int := (left : Int) - (fraction.length - rest : Nat)
  if exponent.natAbs ≥ Nat.pow 2 31 then
    if significand ≠ 0 ∧ 0 < exponent then none
    else some (.float (if negative then -0.0 else 0.0 : Float).toBits)
  else
    (scaleFloat significand.toUInt64.toFloat (exponent + scale) 12).map fun f =>
      .float (if negative then -f else f).toBits

def numberOf? (negative : Bool) (whole : List Char) (fraction : Option (List Char))
    (exponent : Option Int) : Option Number :=
  let n := digitsValue whole
  match fraction, exponent with
  | none, none =>
    if negative then
      if n = 0 then some (.float (-0.0 : Float).toBits)
      else if n ≤ Nat.pow 2 63 then some (.int (-n))
      else floatOf? true whole [] 0
    else if n < Nat.pow 2 64 then some (.int n)
    else floatOf? false whole [] 0
  | f, e => floatOf? negative whole (f.getD []) (e.getD 0)

def unsignedNumber (negative : Bool) (cs : List Char) : Option (Json × List Char) := do
  let (whole, r) := digitsOf cs
  if whole = [] || (whole.head? = some '0' && whole.length ≠ 1) then none
  let (fraction, r) ← fractionPart r
  let (exponent, r) ← exponentPart r
  let n ← numberOf? negative whole fraction exponent
  pure (.number n, r)

def maxDepth : Nat := 128

mutual
def value (depth : Nat) : Nat → List Char → Option (Json × List Char)
  | 0, _ => none
  | n + 1, cs =>
    match skipSpace cs with
    | 'n' :: 'u' :: 'l' :: 'l' :: r => some (.null, r)
    | 't' :: 'r' :: 'u' :: 'e' :: r => some (.bool true, r)
    | 'f' :: 'a' :: 'l' :: 's' :: 'e' :: r => some (.bool false, r)
    | '"' :: r => (stringBody r).map fun p => (.string (String.ofList p.1), p.2)
    | '-' :: r => unsignedNumber true r
    | '[' :: r =>
      match depth with
      | 0 => none
      | depth + 1 =>
        if depth = 0 then none
        else
          match skipSpace r with
          | ']' :: r => some (.array [], r)
          | r => (items depth n r).map fun p => (.array p.1, p.2)
    | '\x7b' :: r =>
      match depth with
      | 0 => none
      | depth + 1 =>
        if depth = 0 then none
        else
          match skipSpace r with
          | '\x7d' :: r => some (.object [], r)
          | r => (fields depth n r).map fun p => (.object p.1, p.2)
    | cs => unsignedNumber false cs

def items (depth : Nat) : Nat → List Char → Option (List Json × List Char)
  | 0, _ => none
  | n + 1, cs =>
    (value depth n cs).bind fun (x, r) =>
      match skipSpace r with
      | ']' :: r => some ([x], r)
      | ',' :: r => (items depth n r).map fun p => (x :: p.1, p.2)
      | _ => none

def fields (depth : Nat) : Nat → List Char → Option (List (String × Json) × List Char)
  | 0, _ => none
  | n + 1, cs =>
    match skipSpace cs with
    | '"' :: r =>
      (stringBody r).bind fun (k, r) =>
        match skipSpace r with
        | ':' :: r =>
          (value depth n r).bind fun (v, r) =>
            match skipSpace r with
            | '\x7d' :: r => some ([(String.ofList k, v)], r)
            | ',' :: r => (fields depth n r).map fun p => ((String.ofList k, v) :: p.1, p.2)
            | _ => none
        | _ => none
    | _ => none
end

/-- The one value that the text holds, with its fields as they stand there. -/
def parse? (text : String) : Option Json :=
  let cs := text.toList
  match value maxDepth (cs.length + 1) cs with
  | some (v, r) => if (skipSpace r).isEmpty then some v else none
  | none => none

end RouteEngine.Json
