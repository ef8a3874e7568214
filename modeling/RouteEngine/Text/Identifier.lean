/-!
Identifiers: a letter or underscore, then letters, digits and underscores, all of them ASCII. The
schemes of URLs are names of another kind, with characters of their own.
-/

namespace RouteEngine.Text

/-- The characters of a name: ASCII letters, digits and the underscore. -/
def isNameChar (c : Char) : Bool := c.isAlphanum || c = '_'

def isIdentifier (s : String) : Bool :=
  match s.toList with
  | [] => false
  | c :: r => (c.isAlpha || c = '_') && r.all isNameChar

/-- The characters of a scheme. -/
def isSchemeChar (c : Char) : Bool := c.isAlphanum || c = '+' || c = '-' || c = '.'

end RouteEngine.Text
