import RouteEngine.Text.Hex
import RouteEngine.Text.Utf8

/-!
Percent escapes. A text is escaped for the part of a URL that it goes into: a single path
segment, a whole path or a fragment; `unescape` takes the escapes of any of them away.
-/

namespace RouteEngine.Escape

open Text

def escapeByte (b : UInt8) : List Char :=
  ['%', upperHexDigit (b.toNat / 16), upperHexDigit (b.toNat % 16)]

/-- Characters that may stand in a path segment as they are. -/
def isSegmentSafe (c : Char) : Bool :=
  0x20 < c.toNat && c.toNat < 0x7F && !(['"', '#', '%', '/', '<', '>', '?', '[', '\\', ']', '^',
    '`', '\x7b', '|', '\x7d'].contains c)

/-- A path keeps its slashes. -/
def isPathSafe (c : Char) : Bool := isSegmentSafe c || c = '/'

/-- A fragment keeps slashes and question marks. -/
def isFragmentSafe (c : Char) : Bool := isPathSafe c || c = '?'

def escapeChar (safe : Char → Bool) (c : Char) : List Char :=
  if safe c then [c] else (Utf8.encodeChar c).flatMap escapeByte

def escapeWith (safe : Char → Bool) (s : List Char) : List Char := s.flatMap (escapeChar safe)

def escapeSegment (s : String) : String := String.ofList (escapeWith isSegmentSafe s.toList)

def escapePath (s : String) : String := String.ofList (escapeWith isPathSafe s.toList)

def escapeFragment (s : String) : String := String.ofList (escapeWith isFragmentSafe s.toList)

/-- The bytes a text stands for: an escape is one byte, any other character its own encoding. -/
def unescapeBytes : List Char → List UInt8
  | [] => []
  | '%' :: a :: b :: r =>
    match hexValue? a, hexValue? b with
    | some x, some y => UInt8.ofNat (16 * x + y) :: unescapeBytes r
    | _, _ => Utf8.encodeChar '%' ++ unescapeBytes (a :: b :: r)
  | c :: r => Utf8.encodeChar c ++ unescapeBytes r

/-- `none` when the bytes are not UTF-8. -/
def unescapeChars (s : List Char) : Option (List Char) := Utf8.decode (unescapeBytes s)

def unescape (s : String) : Option String := (unescapeChars s.toList).map String.ofList

end RouteEngine.Escape
