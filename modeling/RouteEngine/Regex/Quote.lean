/-!
Regular expressions that match one given text: every character with a meaning of its own is
written after a backslash.
-/

namespace RouteEngine.Regex

/-- The characters that an expression may give a meaning to. -/
def isMeta (c : Char) : Bool :=
  ['\\', '.', '+', '*', '?', '(', ')', '|', '[', ']', '\x7b', '\x7d', '^', '$', '#', '&', '-',
    '~'].contains c

def quoteChar (c : Char) : List Char := if isMeta c then ['\\', c] else [c]

def quoteChars (s : List Char) : List Char := s.flatMap quoteChar

def quote (s : String) : String := String.ofList (quoteChars s.toList)

end RouteEngine.Regex
