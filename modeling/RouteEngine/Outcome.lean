import RouteEngine.Text.Numeral

/-!
Computations that may end in a panic, and sums of machine words. A build that checks its
arithmetic ends in a panic where a sum does not fit the word; one that does not check keeps the
low part of the sum.
-/

namespace RouteEngine

/-- How an action ends. -/
inductive Outcome (α : Type)
  | returned (value : α)
  | panicked (message : String)
  deriving DecidableEq, Repr

namespace Outcome

variable {α β : Type}

def map (f : α → β) : Outcome α → Outcome β
  | returned a => returned (f a)
  | panicked message => panicked message

def panic? : Outcome α → Option String
  | returned _ => none
  | panicked message => some message

end Outcome

namespace Word

def overflow : String := "attempt to add with overflow"

/-- The sum of two words where sums are checked. -/
def add (a b : UInt64) : Outcome UInt64 :=
  if a.toNat + b.toNat ≤ Text.maxCount then .returned (a + b) else .panicked overflow

end Word

end RouteEngine
