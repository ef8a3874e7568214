import RouteEngine.Regex.Syntax

/-!
Why a path pattern is refused.
-/

namespace RouteEngine

/-- Why the expression asked for a capture is refused. -/
inductive RequirementFault
  | anchored
  | invalid (e : Regex.SyntaxError)
  deriving DecidableEq, Repr

inductive PatternError
  | unbalancedGroup (pattern : String)
  | missingName (pattern : String) (marker : Char)
  | multipleGlobs (pattern : String)
  | captureAfterGlob (pattern name : String)
  | reservedName (pattern name : String)
  | unknownRequirement (pattern name : String)
  | invalidRequirement (name : String) (fault : RequirementFault)
  deriving DecidableEq, Repr

def RequirementFault.message : RequirementFault → String
  | .anchored => "regexp anchor characters are not allowed in routing requirements"
  | .invalid e => e.message

def PatternError.message : PatternError → String
  | .unbalancedGroup p => "unbalanced parentheses in pattern '" ++ p ++ "'"
  | .missingName p m =>
    "missing parameter name after '" ++ m.toString ++ "' in pattern '" ++ p ++ "'"
  | .multipleGlobs p => "pattern '" ++ p ++ "' contains more than one glob segment"
  | .captureAfterGlob p n =>
    "parameter '" ++ n ++ "' follows the glob segment in pattern '" ++ p ++ "'"
  | .reservedName p n => "parameter name '" ++ n ++ "' in pattern '" ++ p ++ "' is reserved"
  | .unknownRequirement p n =>
    "requirement given for '" ++ n ++ "' but pattern '" ++ p ++ "' has no such segment"
  | .invalidRequirement n f => "invalid requirement for '" ++ n ++ "': " ++ f.message

end RouteEngine
