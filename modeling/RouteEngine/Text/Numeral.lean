/-!
Decimal numerals. An unsigned numeral may carry a plus sign and is refused when it exceeds its
bound.
-/

namespace RouteEngine.Text

def digitsValue (ds : List Char) : Nat := ds.foldl (fun n c => 10 * n + (c.toNat - 48)) 0

def dropPlus : List Char → List Char
  | '+' :: r => r
  | cs => cs

/-- The number that the text writes, up to and including `most`. -/
def unsigned? (most : Nat) (s : String) : Option Nat :=
  let ds := dropPlus s.toList
  if ds.isEmpty || !ds.all Char.isDigit then none
  else if digitsValue ds ≤ most then some (digitsValue ds) else none

def maxPort : Nat := 65535

def port? (s : String) : Option Nat := unsigned? maxPort s

/-- The greatest count that fits a machine word. -/
def maxCount : Nat := 18446744073709551615

def count? (s : String) : Option Nat := unsigned? maxCount s

end RouteEngine.Text
