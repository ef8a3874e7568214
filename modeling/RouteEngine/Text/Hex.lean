/-!
Hexadecimal digits. Reading takes either case; writing has a function for each.
-/

namespace RouteEngine.Text

def upperHexDigit (n : Nat) : Char :=
  if n < 10 then Char.ofNat (48 + n) else Char.ofNat (55 + n)

def lowerHexDigit (n : Nat) : Char :=
  if n < 10 then Char.ofNat (48 + n) else Char.ofNat (87 + n)

def hexValue? (c : Char) : Option Nat :=
  let n := c.toNat
  if 48 ≤ n ∧ n ≤ 57 then some (n - 48)
  else if 65 ≤ n ∧ n ≤ 70 then some (n - 55)
  else if 97 ≤ n ∧ n ≤ 102 then some (n - 87)
  else none

def isHexDigit (c : Char) : Bool := (hexValue? c).isSome

/-- The number that the digits write, if all of them are hexadecimal. -/
def hexNumber? (ds : List Char) : Option Nat :=
  ds.foldl (fun acc c => acc.bind fun n => (hexValue? c).map (16 * n + ·)) (some 0)

/-- The digits of a number without leading zeros. -/
def lowerHex (n : Nat) : List Char := Nat.toDigits 16 n

end RouteEngine.Text
