/-!
The binary64 number nearest to a fraction, by its bits. A quotient with 53 binary digits is taken
in exact arithmetic and rounded, a tie going to the even neighbour.
-/

namespace RouteEngine.Decimal

/-- The quotient rounded to the nearest whole number, a tie to the even one. -/
def roundQuotient (num den : Nat) : Nat :=
  let q := num / den
  let r := num % den
  if 2 * r > den ∨ (2 * r = den ∧ q % 2 = 1) then q + 1 else q

/-- `num / den` in units of `2 ^ p`, as a fraction. -/
def inUnits (num den : Nat) (p : Int) : Nat × Nat :=
  if 0 ≤ p then (num, den * (Nat.pow 2 p.toNat)) else (num * (Nat.pow 2 (-p).toNat), den)

/-- The exponent of the unit in which the fraction has 53 binary digits, or that of the least
number. -/
def unitOf (num den : Nat) : Int :=
  let p : Int := (num.log2 : Int) - den.log2 - 53
  let (n, d) := inUnits num den p
  max (-1074) (if Nat.pow 2 53 ≤ n / d then p + 1 else p)

def infinityBits : Nat := 2047 * Nat.pow 2 52

/-- The bits of the nearest number, those of infinity where all numbers are too small. -/
def nearestBits (num den : Nat) : Nat :=
  if num = 0 then 0
  else
    let p := unitOf num den
    let (n, d) := inUnits num den p
    min infinityBits ((p + 1074).toNat * Nat.pow 2 52 + roundQuotient n d)

/-- The bits of the number nearest to `digits * 10 ^ exponent`. Exponents far beyond those of all
numbers need no arithmetic. -/
def ofScientificBits (digits : Nat) (exponent : Int) : Nat :=
  let top := exponent + (Nat.toDigits 10 digits).length
  if digits = 0 ∨ top < -400 then 0
  else if 400 < top then infinityBits
  else if 0 ≤ exponent then nearestBits (digits * (Nat.pow 10 exponent.toNat)) 1
  else nearestBits digits (Nat.pow 10 (-exponent).toNat)

end RouteEngine.Decimal
