/-!
The shortest decimal that reads back as a given binary64 number. The number is taken apart into
`m * 2 ^ q`; the reals that round to it form an interval, whose ends belong to it exactly when
`m` is even. The search goes through ever finer decimal grids and stops at the first one that
has a point in the interval; all arithmetic is exact.
-/

namespace RouteEngine.Decimal

/-- The number `digits * 10 ^ exponent`. -/
structure Scaled where
  digits : Nat
  exponent : Int
  deriving DecidableEq, Repr

/-- A binary64 number by its bits: sign, mantissa and exponent of two. -/
structure Binary where
  negative : Bool
  mantissa : Nat
  exponent : Int
  /-- The next number down is only half as far away as the next number up. -/
  uneven : Bool
  deriving DecidableEq, Repr

/-- `none` for infinities and what is not a number. -/
def Binary.ofBits? (bits : UInt64) : Option Binary :=
  let n : Nat := bits.toNat
  let fraction : Nat := n % Nat.pow 2 52
  let biased : Nat := n / (Nat.pow 2 52) % Nat.pow 2 11
  let negative := n / (Nat.pow 2 63) == 1
  if biased = 2047 then none
  else if biased = 0 then some ⟨negative, fraction, -1074, false⟩
  else some ⟨negative, Nat.pow 2 52 + fraction, (biased : Int) - 1075, fraction == 0 && 1 < biased⟩

/-- `2 ^ e` as numerator and denominator. -/
def twoPow (e : Int) : Nat × Nat := (Nat.pow 2 e.toNat, Nat.pow 2 (-e).toNat)

def tenPow (e : Int) : Nat × Nat := (Nat.pow 10 e.toNat, Nat.pow 10 (-e).toNat)

/-- Orders `d * 10 ^ e` against `x * 2 ^ p`. -/
def compareTo (d : Nat) (e : Int) (x : Nat) (p : Int) : Ordering :=
  compare (d * (tenPow e).1 * (twoPow p).2) (x * (twoPow p).1 * (tenPow e).2)

/-- Whether `d * 10 ^ e` rounds to the number. -/
def Binary.reads (b : Binary) (d : Nat) (e : Int) : Bool :=
  let p := b.exponent - 2
  let low := compareTo d e (4 * b.mantissa - if b.uneven then 1 else 2) p
  let high := compareTo d e (4 * b.mantissa + 2) p
  if b.mantissa % 2 = 0 then low != .lt && high != .gt else low == .gt && high == .lt

/-- The point of the grid of step `10 ^ e` that is nearest to the number among those next to it
that read back as it. -/
def Binary.onGrid? (b : Binary) (e : Int) : Option Scaled :=
  let num := b.mantissa * (twoPow b.exponent).1 * (tenPow e).2
  let den := (tenPow e).1 * (twoPow b.exponent).2
  let below := num / den
  let rest := num % den
  let lower := decide (2 * rest < den) || (decide (2 * rest = den) && below % 2 == 0)
  let first := if lower then below else below + 1
  let second := if lower then below + 1 else below
  if 0 < first && b.reads first e then some ⟨first, e⟩
  else if 0 < second && b.reads second e then some ⟨second, e⟩
  else none

def Binary.search (b : Binary) (e : Int) : Nat → Scaled
  | 0 => ⟨b.mantissa, 0⟩
  | n + 1 =>
    match b.onGrid? e with
    | some s => s
    | none => b.search (e - 1) n

/-- Moves zeros from the end of the digits into the exponent. -/
def Scaled.strip (s : Scaled) : Nat → Scaled
  | 0 => s
  | n + 1 =>
    if s.digits ≠ 0 ∧ s.digits % 10 = 0 then Scaled.strip ⟨s.digits / 10, s.exponent + 1⟩ n else s

/-- No binary64 number reaches `10 ^ 309`, and 18 digits below the leading one always suffice. -/
def Binary.shortest (b : Binary) : Scaled :=
  if b.mantissa = 0 then ⟨0, 0⟩ else (b.search 309 680).strip 20

end RouteEngine.Decimal
