import RouteEngine.Dict
import RouteEngine.Pattern.Parser
import RouteEngine.Regex.Quote
import RouteEngine.Regex.Whole

/-!
Compiling a pattern. The tree is written out as one expression: literals quoted, each capture a
group around its own expression, each group of the pattern an expression that may be left out.
Since the expressions of captures may have groups of their own, a slot records for each capture
the number of its group.
-/

namespace RouteEngine

/-- A name and the number of the group that captures it. -/
structure Slot where
  name : String
  group : Nat
  deriving DecidableEq, Repr

structure Pattern where
  source : String
  segments : Segments
  /-- The text of `regex`. -/
  regexText : String
  regex : Regex
  /-- In the order of the text. -/
  slots : List Slot
  /-- The expressions asked for by name, each for the whole value. -/
  requirements : Dict Regex
  /-- The pattern has to match the whole path and not only its beginning. -/
  anchored : Bool

namespace Segments

def regexChars : Segments → List Char
  | done => []
  | literal text next => Regex.quoteChars text.toList ++ next.regexChars
  | capture c next => '(' :: c.regex.toList ++ ')' :: next.regexChars
  | group inner next => "(?:".toList ++ inner.regexChars ++ ")?".toList ++ next.regexChars

/-- The slots of the captures when groups are numbered from `first`, and the number after them.
The expression of each capture has to be well formed by itself. -/
def slots (first : Nat) : Segments → Except PatternError (List Slot × Nat)
  | done => .ok ([], first)
  | literal _ next => next.slots first
  | capture c next =>
    match Regex.parse c.regex with
    | .error e => .error (.invalidRequirement c.name (.invalid e))
    | .ok r => do
      let (rest, n) ← next.slots (first + r.groupCount)
      return (⟨c.name, first⟩ :: rest, n)
  | group inner next => do
    let (here, n) ← inner.slots first
    let (rest, n) ← next.slots n
    return (here ++ rest, n)

end Segments

namespace Pattern

def checkRequirement (name source : String) : Except PatternError Regex :=
  if Regex.carriesAnchor source.toList then .error (.invalidRequirement name .anchored)
  else
    match Regex.parseWhole source with
    | .error e => .error (.invalidRequirement name (.invalid e))
    | .ok r => .ok r

def checkRequirements : List (String × String) → Except PatternError (List (String × Regex))
  | [] => .ok []
  | (name, source) :: rest => do
    let r ← checkRequirement name source
    let rs ← checkRequirements rest
    return (name, r) :: rs

/-- Gives a capture the expression asked for by its name. A glob that nothing is asked of stops
early when some capture is named `format`. -/
def requireCapture (requirements : Dict String) (hasFormat : Bool) (c : Capture) : Capture :=
  match requirements.get? c.name with
  | some source => { c with regex := source, explicit := true }
  | none => if c.kind = .glob ∧ hasFormat then { c with regex := lazyGlobRegex } else c

def requireAll (requirements : Dict String) (s : Segments) : Segments :=
  s.mapCaptures (requireCapture requirements (s.names.contains "format"))

def regexTextOf (anchored : Bool) (s : Segments) : List Char :=
  '^' :: s.regexChars ++ if anchored then ['$'] else []

def compile (source : String) (requirements : Dict String) (anchored : Bool) :
    Except PatternError Pattern := do
  let tree ← readTree source
  match requirements.keys.find? fun n => !tree.names.contains n with
  | some n => .error (.unknownRequirement source n)
  | none =>
    let checked ← checkRequirements requirements.entries
    let segments := requireAll requirements tree
    let (slots, _) ← segments.slots 1
    let text := regexTextOf anchored segments
    match Regex.parseChars text with
    | .error e => .error (.invalidRequirement "" (.invalid e))
    | .ok regex =>
      return {
        source, segments, regex, slots, anchored
        regexText := String.ofList text
        requirements := Dict.ofList checked }

def names (p : Pattern) : List String := p.segments.names

def requiredNames (p : Pattern) : List String := p.segments.requiredNames

/-- The required names, each once. -/
def requiredKeys (p : Pattern) : List String := Names.distinct p.requiredNames

def optionalNames (p : Pattern) : List String := p.segments.optionalNames

def requirement? (p : Pattern) (name : String) : Option Regex := p.requirements.get? name

end Pattern

end RouteEngine
