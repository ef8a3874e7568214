import RouteEngine.Text.Hex

/-!
The small parts of TOML text: blanks, comments, keys and strings. Each reader takes the
characters that are left and gives back what it read together with the rest; `none` refuses the
text.
-/

namespace RouteEngine.Toml

open Text (hexNumber?)

def isBlank (c : Char) : Bool := c = ' ' || c = '\t'

/-- Tabs, printable ASCII and everything beyond ASCII. -/
def isTextChar (c : Char) : Bool :=
  c = '\t' || (0x20 ≤ c.toNat && c.toNat < 0x7F) || 0x80 ≤ c.toNat

def skipBlanks (cs : List Char) : List Char := cs.dropWhile isBlank

def skipComment : List Char → List Char
  | '#' :: r => r.dropWhile isTextChar
  | cs => cs

/-- What follows the end of a line, before which only blanks and a comment may stand. -/
def lineEnd? (cs : List Char) : Option (List Char) :=
  match skipComment (skipBlanks cs) with
  | [] => some []
  | '\n' :: r => some r
  | '\r' :: '\n' :: r => some r
  | _ => none

/-- Skips blanks, line ends and comments. -/
def skipGap (inComment : Bool) : List Char → List Char
  | [] => []
  | '\n' :: r => skipGap false r
  | '\r' :: '\n' :: r => skipGap false r
  | c :: r =>
    if inComment then
      if isTextChar c then skipGap true r else c :: r
    else if c = '#' then skipGap true r
    else if isBlank c then skipGap false r
    else c :: r

def simpleEscape? : Char → Option Char
  | 'b' => some '\x08'
  | 't' => some '\t'
  | 'n' => some '\n'
  | 'f' => some '\x0c'
  | 'r' => some '\r'
  | '"' => some '"'
  | '\\' => some '\\'
  | _ => none

/-- The character with the number that the digits write. -/
def charOf? (digits : List Char) : Option Char :=
  (hexNumber? digits).bind fun n => if n.isValidChar then some (Char.ofNat n) else none

def prepend (c : Option Char) (rest : Option (List Char × List Char)) :
    Option (List Char × List Char) :=
  match c, rest with
  | some c, some (cs, r) => some (c :: cs, r)
  | _, _ => none

/-- The rest of a string in double quotes. -/
def basicBody : List Char → Option (List Char × List Char)
  | '"' :: r => some ([], r)
  | '\\' :: 'u' :: a :: b :: c :: d :: r => prepend (charOf? [a, b, c, d]) (basicBody r)
  | '\\' :: 'U' :: a :: b :: c :: d :: e :: f :: g :: h :: r =>
    prepend (charOf? [a, b, c, d, e, f, g, h]) (basicBody r)
  | '\\' :: c :: r => prepend (simpleEscape? c) (basicBody r)
  | c :: r => if isTextChar c && c ≠ '\\' then prepend (some c) (basicBody r) else none
  | [] => none

/-- The rest of a string in single quotes, in which nothing is escaped. -/
def literalBody : List Char → Option (List Char × List Char)
  | '\'' :: r => some ([], r)
  | c :: r => if isTextChar c then prepend (some c) (literalBody r) else none
  | [] => none

/-- Where in a string of several lines a reader is: in its text, between a backslash and the end
of its line, or in the blanks and line ends that such a backslash removes. -/
inductive Joint
  | text
  | before
  | after
  deriving DecidableEq

/-- The rest of a string in three double quotes. Up to two quotes may stand before the closing
ones. -/
def basicLines : Joint → List Char → Option (List Char × List Char)
  | _, [] => none
  | .before, '\n' :: r => basicLines .after r
  | .before, '\r' :: '\n' :: r => basicLines .after r
  | .before, c :: r => if isBlank c then basicLines .before r else none
  | .after, '\n' :: r => basicLines .after r
  | .after, '\r' :: '\n' :: r => basicLines .after r
  | _, '"' :: '"' :: '"' :: '"' :: '"' :: r => some (['"', '"'], r)
  | _, '"' :: '"' :: '"' :: '"' :: r => some (['"'], r)
  | _, '"' :: '"' :: '"' :: r => some ([], r)
  | _, '\\' :: 'u' :: a :: b :: c :: d :: r => prepend (charOf? [a, b, c, d]) (basicLines .text r)
  | _, '\\' :: 'U' :: a :: b :: c :: d :: e :: f :: g :: h :: r =>
    prepend (charOf? [a, b, c, d, e, f, g, h]) (basicLines .text r)
  | _, '\\' :: c :: r =>
    if isBlank c || c = '\n' || c = '\r' then basicLines .before (c :: r)
    else prepend (simpleEscape? c) (basicLines .text r)
  | _, '\n' :: r => prepend (some '\n') (basicLines .text r)
  | _, '\r' :: '\n' :: r => prepend (some '\n') (basicLines .text r)
  | joint, c :: r =>
    if joint = .after && isBlank c then basicLines .after r
    else if isTextChar c && c ≠ '\\' then prepend (some c) (basicLines .text r)
    else none

/-- The rest of a string in three single quotes. -/
def literalLines : List Char → Option (List Char × List Char)
  | '\'' :: '\'' :: '\'' :: '\'' :: '\'' :: r => some (['\'', '\''], r)
  | '\'' :: '\'' :: '\'' :: '\'' :: r => some (['\''], r)
  | '\'' :: '\'' :: '\'' :: r => some ([], r)
  | '\n' :: r => prepend (some '\n') (literalLines r)
  | '\r' :: '\n' :: r => prepend (some '\n') (literalLines r)
  | c :: r => if isTextChar c then prepend (some c) (literalLines r) else none
  | [] => none

/-- A line end right after the opening quotes does not count. -/
def dropLineEnd : List Char → List Char
  | '\n' :: r => r
  | '\r' :: '\n' :: r => r
  | cs => cs

def asText (p : Option (List Char × List Char)) : Option (String × List Char) :=
  p.map fun p => (String.ofList p.1, p.2)

def string? : List Char → Option (String × List Char)
  | '"' :: '"' :: '"' :: r => asText (basicLines .text (dropLineEnd r))
  | '"' :: r => asText (basicBody r)
  | '\'' :: '\'' :: '\'' :: r => asText (literalLines (dropLineEnd r))
  | '\'' :: r => asText (literalBody r)
  | _ => none

def isBareChar (c : Char) : Bool := c.isAlphanum || c = '-' || c = '_'

def simpleKey? : List Char → Option (String × List Char)
  | '"' :: r => asText (basicBody r)
  | '\'' :: r => asText (literalBody r)
  | cs =>
    match cs.takeWhile isBareChar with
    | [] => none
    | name => some (String.ofList name, cs.dropWhile isBareChar)

/-- Keys with dots between them; a key for every unit of fuel at most. -/
def keyPath? : Nat → List Char → Option (List String × List Char)
  | 0, _ => none
  | n + 1, cs => do
    let (key, r) ← simpleKey? (skipBlanks cs)
    match skipBlanks r with
    | '.' :: r => do
      let (keys, r) ← keyPath? n r
      return (key :: keys, r)
    | r => return ([key], r)

/-- As deep as keys and values may nest. -/
def maxDepth : Nat := 79

def key? (cs : List Char) : Option (List String × List Char) := keyPath? maxDepth cs

end RouteEngine.Toml
