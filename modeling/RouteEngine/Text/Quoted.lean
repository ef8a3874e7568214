import RouteEngine.Text.Hex
import RouteEngine.Text.Printable

/-!
Texts in double quotes, as messages show them: quotes and backslashes are escaped, and so is
every character that would not show, by a letter or by its number in braces.
-/

namespace RouteEngine.Text

def quotedChar (c : Char) : List Char :=
  match c with
  | '"' => ['\\', '"']
  | '\\' => ['\\', '\\']
  | '\n' => ['\\', 'n']
  | '\r' => ['\\', 'r']
  | '\t' => ['\\', 't']
  | '\x00' => ['\\', '0']
  | c => if isPrintable c then [c] else ['\\', 'u', '\x7b'] ++ lowerHex c.toNat ++ ['\x7d']

def quoted (s : String) : String :=
  String.ofList ('"' :: s.toList.flatMap quotedChar ++ ['"'])

/-- Quoted texts with commas between them. -/
def quotedItems (xs : List String) : String := ", ".intercalate (xs.map quoted)

/-- A list of quoted texts in square brackets. -/
def quotedList (xs : List String) : String := "[" ++ quotedItems xs ++ "]"

end RouteEngine.Text
