import RouteEngine.Dict
import RouteEngine.Escape.Percent
import RouteEngine.Text.Split

/-!
Query strings as forms write them: pairs of a name and a value, in which letters, digits and four
marks stand for themselves, a plus sign stands for a blank, and all else is escaped.
-/

namespace RouteEngine.Query

def isPlain (c : Char) : Bool := c.isAlphanum || ['*', '-', '.', '_'].contains c

def encodeChar (c : Char) : List Char := if c = ' ' then ['+'] else Escape.escapeChar isPlain c

def encode (s : List Char) : List Char := s.flatMap encodeChar

def encodePair (p : String × String) : List Char := encode p.1.toList ++ '=' :: encode p.2.toList

/-- The pairs with ampersands between them. -/
def encodeAll (pairs : List (String × String)) : List Char := Text.join ['&'] (pairs.map encodePair)

end RouteEngine.Query
