import RouteEngine.Regex.Category
import RouteEngine.Text.White

/-!
Regular expressions over characters. A class of characters is a tree of ranges and properties
under the set operations; `holds` says which characters it has. Repetition is built from two
constructors only: one round or more, and nothing or one.
-/

namespace RouteEngine.Regex

/-- A named set of characters. -/
inductive Property
  | digit
  | word
  | space
  | category (name : String)
  | script (name : String)
  | assigned
  | alphabetic
  | lowercase
  | uppercase
  deriving DecidableEq, Repr

def isAsciiWord (n : Nat) : Bool :=
  (48 ≤ n && n ≤ 57) || (65 ≤ n && n ≤ 90) || n = 95 || (97 ≤ n && n ≤ 122)

def isLetterCategory (name : String) : Bool :=
  ["Lu", "Ll", "Lt", "Lm", "Lo", "Nl"].contains name

def isAlphabetic (n : Nat) : Bool := isLetterCategory (categoryOf n) || inRuns otherAlphabetic n

def isWord (n : Nat) : Bool :=
  if n < 128 then isAsciiWord n
  else
    isAlphabetic n || ["Mn", "Mc", "Me", "Nd", "Pc"].contains (categoryOf n) || n = 0x200C ||
      n = 0x200D

def Property.holds (c : Char) : Property → Bool
  | .digit => c.isDigit || (128 ≤ c.toNat && categoryOf c.toNat = "Nd")
  | .word => isWord c.toNat
  | .space => Text.isWhite c.toNat
  | .category name => name.toList.isPrefixOf (categoryOf c.toNat).toList
  | .script name =>
    match scriptRuns.find? fun e => e.1 = name with
    | some e => inRuns e.2 c.toNat
    | none => false
  | .assigned => categoryOf c.toNat ≠ "Cn"
  | .alphabetic => isAlphabetic c.toNat
  | .lowercase => categoryOf c.toNat = "Ll" || inRuns otherLowercase c.toNat
  | .uppercase => categoryOf c.toNat = "Lu" || inRuns otherUppercase c.toNat

inductive CharClass
  | none
  | range (first last : Char)
  | property (p : Property)
  | union (a b : CharClass)
  | inter (a b : CharClass)
  | diff (a b : CharClass)
  | compl (a : CharClass)
  /-- Every character that differs from one of `a` at most in case. -/
  | folded (a : CharClass)
  deriving DecidableEq, Repr

namespace CharClass

def holds : CharClass → Char → Bool
  | none, _ => false
  | range first last, c => first ≤ c && c ≤ last
  | property p, c => p.holds c
  | union a b, c => a.holds c || b.holds c
  | inter a b, c => a.holds c && b.holds c
  | diff a b, c => a.holds c && !b.holds c
  | compl a, c => !a.holds c
  | folded a, c => a.holds c || (foldClass c.toNat).any fun n => a.holds (Char.ofNat n)

def single (c : Char) : CharClass := range c c

def ofRanges (rs : List (Char × Char)) : CharClass :=
  rs.foldr (fun r acc => union (range r.1 r.2) acc) none

def unionAll (cs : List CharClass) : CharClass := cs.foldr union none

def symmDiff (a b : CharClass) : CharClass := union (diff a b) (diff b a)

end CharClass

/-- Conditions on a place in the text that take up no character. Those on words come in two
kinds, over all characters or over ASCII alone. -/
inductive Look
  | textStart
  | textEnd
  | lineStart
  | lineEnd
  | crlfStart
  | crlfEnd
  | wordBoundary (ascii : Bool)
  | notWordBoundary (ascii : Bool)
  | wordStart (ascii : Bool)
  | wordEnd (ascii : Bool)
  | wordStartHalf (ascii : Bool)
  | wordEndHalf (ascii : Bool)
  deriving DecidableEq, Repr

def isWordAt (ascii : Bool) : Option Char → Bool
  | none => false
  | some c => if ascii then isAsciiWord c.toNat else isWord c.toNat

/-- Whether the condition holds between the characters `prev` and `next`. -/
def Look.holds (prev next : Option Char) : Look → Bool
  | .textStart => prev.isNone
  | .textEnd => next.isNone
  | .lineStart => prev.isNone || prev = some '\n'
  | .lineEnd => next.isNone || next = some '\n'
  | .crlfStart => prev.isNone || prev = some '\n' || (prev = some '\r' && next ≠ some '\n')
  | .crlfEnd => next.isNone || next = some '\r' || (next = some '\n' && prev ≠ some '\r')
  | .wordBoundary a => isWordAt a prev != isWordAt a next
  | .notWordBoundary a => isWordAt a prev == isWordAt a next
  | .wordStart a => !isWordAt a prev && isWordAt a next
  | .wordEnd a => isWordAt a prev && !isWordAt a next
  | .wordStartHalf a => !isWordAt a prev
  | .wordEndHalf a => !isWordAt a next

end Regex

/-- `alt` prefers its left side. A greedy repetition prefers to go on, any other to stop. -/
inductive Regex
  | empty
  | chars (c : Regex.CharClass)
  | look (l : Regex.Look)
  | concat (a b : Regex)
  | alt (a b : Regex)
  | plus (greedy : Bool) (a : Regex)
  | opt (greedy : Bool) (a : Regex)
  | group (index : Nat) (a : Regex)
  deriving DecidableEq, Repr

namespace Regex

def star (greedy : Bool) (a : Regex) : Regex := opt greedy (plus greedy a)

def copies (a : Regex) : Nat → Regex
  | 0 => empty
  | 1 => a
  | n + 2 => concat a (copies a (n + 1))

/-- Up to `n` copies, each one only after the one before it. -/
def upTo (greedy : Bool) (a : Regex) : Nat → Regex
  | 0 => empty
  | 1 => opt greedy a
  | n + 2 => opt greedy (concat a (upTo greedy a (n + 1)))

/-- From `least` rounds to `most`, or without a limit. What is repeated no time at all is gone,
groups included. -/
def repeated (greedy : Bool) (a : Regex) (least : Nat) : (most : Option Nat) → Regex
  | none =>
    match least with
    | 0 => star greedy a
    | 1 => plus greedy a
    | n + 2 => concat (copies a (n + 1)) (plus greedy a)
  | some most =>
    if most = least then copies a least
    else if least = 0 then upTo greedy a most
    else concat (copies a least) (upTo greedy a (most - least))

/-- A rough number of bytes for a matcher of a class, beyond those of one state. -/
def CharClass.weight : CharClass → Nat
  | .none => 0
  | .range _ last => if last.toNat < 128 then 8 else 160
  | .property .digit => 3500
  | .property .space => 800
  | .property .assigned => 30000
  | .property .word => 46000
  | .property .alphabetic => 46000
  | .property .lowercase => 20000
  | .property .uppercase => 20000
  | .property (.category _) => 20000
  | .property (.script _) => 2000
  | .union a b => a.weight + b.weight
  | .inter a b => a.weight + b.weight
  | .diff a b => a.weight + b.weight
  | .compl a => a.weight + 400
  | .folded a => 2 * a.weight

/-- A rough number of bytes for a matcher of the expression, 32 a state. -/
def weight : Regex → Nat
  | empty => 32
  | chars c => c.weight + 32
  | look _ => 32
  | concat a b => a.weight + b.weight
  | alt a b => a.weight + b.weight + 40
  | plus _ a => a.weight + 32
  | opt _ a => a.weight + 32
  | group _ a => a.weight + 64

/-- An expression that weighs more is refused. -/
def weightLimit : Nat := 10485760

/-! ### Nesting -/

/-- What stands side by side in a sequence, between two bars or in brackets. -/
structure Row where
  count : Nat
  deepest : Nat
  deriving DecidableEq, Repr

def Row.empty : Row := ⟨0, 0⟩

def Row.single (depth : Nat) : Row := ⟨1, depth⟩

def Row.cons (depth : Nat) (row : Row) : Row := ⟨row.count + 1, max depth row.deepest⟩

/-- Only two and more make a level of their own. -/
def Row.depth (row : Row) : Nat := if row.count < 2 then row.deepest else row.deepest + 1

/-- What is gathered between brackets. Gathering begins with the empty set, and no other class
does; an operation takes the place of what was gathered before it. -/
def CharClass.gathered? : CharClass → Option Row
  | .none => some .empty
  | .range _ _ => Option.none
  | .property _ => Option.none
  | .union (.diff a b) _ => some (operation a.gathered? b.gathered?)
  | .union a b => a.gathered?.map (Row.cons (bracketed b.gathered?))
  | .inter a b => some (operation a.gathered? b.gathered?)
  | .diff a b => some (operation a.gathered? b.gathered?)
  | .compl a => a.gathered?
  | .folded a => a.gathered?
where
  bracketed : Option Row → Nat
    | Option.none => 0
    | some row => if row.count = 0 then 0 else row.depth + 1
  operation (a b : Option Row) : Row :=
    .single (max (a.elim 0 Row.depth) (b.elim 0 Row.depth) + 1)

/-- How deep brackets stand in one another. A class that is named has none. -/
def CharClass.depth (c : CharClass) : Nat := CharClass.gathered?.bracketed c.gathered?

/-- An expression and the number of levels on which its groups, repetitions, sequences,
alternatives and brackets stand in one another. -/
structure Part where
  regex : Regex
  depth : Nat
  deriving DecidableEq, Repr

/-- A single character, class or condition. -/
def Part.unit : Regex → Part
  | chars c => ⟨chars c, c.depth⟩
  | a => ⟨a, 0⟩

def Part.repeated (greedy : Bool) (a : Part) (least : Nat) (most : Option Nat) : Part :=
  ⟨a.regex.repeated greedy least most, a.depth + 1⟩

/-- An expression with more levels is refused. -/
def nestLimit : Nat := 250

/-! ### Groups -/

/-- The groups that occur, in no particular order and with repeats. -/
def groupIndices : Regex → List Nat
  | empty => []
  | chars _ => []
  | look _ => []
  | concat a b => a.groupIndices ++ b.groupIndices
  | alt a b => a.groupIndices ++ b.groupIndices
  | plus _ a => a.groupIndices
  | opt _ a => a.groupIndices
  | group i a => i :: a.groupIndices

/-- How many groups occur, with the whole match as one. -/
def groupCount (r : Regex) : Nat := r.groupIndices.eraseDups.length + 1

end Regex

end RouteEngine
