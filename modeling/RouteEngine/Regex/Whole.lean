import RouteEngine.Regex.Matcher
import RouteEngine.Regex.Parser

/-!
Expressions for whole values. A source is written without anchors of its own and is put between
anchors before it is read.
-/

namespace RouteEngine.Regex

/-- The source begins or ends with an anchor. A dollar sign after a backslash is none. -/
def carriesAnchor (source : List Char) : Bool :=
  source.head? = some '^' || Text.startsWith ['\\', 'A'] source ||
    (Text.endsWith ['$'] source && !Text.endsWith ['\\', '$'] source) ||
    Text.endsWith ['\\', 'z'] source || Text.endsWith ['\\', 'Z'] source

def anchored (source : List Char) : List Char := "^(?:".toList ++ source ++ ")$".toList

/-- The expression that a whole value has to match. -/
def parseWhole (source : String) : Except SyntaxError Regex := parseChars (anchored source.toList)

def matchesValue (r : Regex) (value : String) : Bool := r.isMatch value.toList

end RouteEngine.Regex
