import RouteEngine.Decimal.Shortest

/-!
Numbers of a JSON document. Whole numbers that fit 64 bits are kept exactly; every other number
is a binary64 value, kept by its bits. The text of the latter is the shortest decimal that
reads back, positional while the point falls inside or near the digits.
-/

namespace RouteEngine.Json

inductive Number
  | int (value : Int)
  | float (bits : UInt64)
  deriving DecidableEq, Repr, Inhabited

def digitChars (n : Nat) : List Char := Nat.toDigits 10 n

/-- An exponent with its sign. -/
def exponentChars (e : Int) : List Char :=
  if 0 ≤ e then '+' :: digitChars e.toNat else '-' :: digitChars (-e).toNat

/-- A decimal with a point between digits 0 and 16 is positional, one below `1e-5` or above is
written with an exponent. -/
def scaledChars (s : Decimal.Scaled) : List Char :=
  let digits := digitChars s.digits
  let length : Int := digits.length
  let point := length + s.exponent
  if 0 ≤ s.exponent ∧ point ≤ 16 then
    digits ++ List.replicate s.exponent.toNat '0' ++ ['.', '0']
  else if 0 < point ∧ point ≤ 16 then
    digits.take point.toNat ++ '.' :: digits.drop point.toNat
  else if -5 < point ∧ point ≤ 0 then
    '0' :: '.' :: List.replicate (-point).toNat '0' ++ digits
  else
    let exponent := exponentChars (point - 1)
    match digits with
    | [d] => d :: 'e' :: exponent
    | d :: ds => d :: '.' :: ds ++ 'e' :: exponent
    | [] => []

/-- What is not a finite number is written as the absent value. -/
def floatChars (bits : UInt64) : List Char :=
  match Decimal.Binary.ofBits? bits with
  | none => "null".toList
  | some b =>
    let text := if b.mantissa = 0 then "0.0".toList else scaledChars b.shortest
    if b.negative then '-' :: text else text

def Number.chars : Number → List Char
  | .int i => (toString i).toList
  | .float bits => floatChars bits

end RouteEngine.Json
