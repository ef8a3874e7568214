import RouteEngine.Json.Basic
import RouteEngine.Text.Hex

/-!
JSON text, compact or indented by two spaces. Strings escape quotes, backslashes and control
characters and nothing else.
-/

namespace RouteEngine.Json

open Text (lowerHexDigit)

def escapeChar (c : Char) : List Char :=
  match c with
  | '"' => ['\\', '"']
  | '\\' => ['\\', '\\']
  | '\n' => ['\\', 'n']
  | '\r' => ['\\', 'r']
  | '\t' => ['\\', 't']
  | '\x08' => ['\\', 'b']
  | '\x0c' => ['\\', 'f']
  | c =>
    if c.toNat < 0x20 then ['\\', 'u', '0', '0', lowerHexDigit (c.toNat / 16), lowerHexDigit (c.toNat % 16)]
    else [c]

def quote (s : String) : List Char := '"' :: s.toList.flatMap escapeChar ++ ['"']

mutual
def compactChars : Json → List Char
  | .null => "null".toList
  | .bool b => (if b then "true" else "false").toList
  | .number n => n.chars
  | .string s => quote s
  | .array [] => ['[', ']']
  | .array (x :: xs) => '[' :: compactChars x ++ compactItems xs
  | .object [] => ['\x7b', '\x7d']
  | .object ((k, v) :: fs) => '\x7b' :: quote k ++ ':' :: compactChars v ++ compactFields fs

def compactItems : List Json → List Char
  | [] => [']']
  | x :: xs => ',' :: compactChars x ++ compactItems xs

def compactFields : List (String × Json) → List Char
  | [] => ['\x7d']
  | (k, v) :: fs => ',' :: quote k ++ ':' :: compactChars v ++ compactFields fs
end

def compact (j : Json) : String := String.ofList (compactChars j)

def indentation (depth : Nat) : List Char := '\n' :: List.replicate (2 * depth) ' '

mutual
def prettyChars (depth : Nat) : Json → List Char
  | .array [] => ['[', ']']
  | .array (x :: xs) =>
    '[' :: indentation (depth + 1) ++ prettyChars (depth + 1) x ++ prettyItems depth xs
  | .object [] => ['\x7b', '\x7d']
  | .object ((k, v) :: fs) =>
    '\x7b' :: indentation (depth + 1) ++ quote k ++ ':' :: ' ' :: prettyChars (depth + 1) v ++
      prettyFields depth fs
  | other => compactChars other

def prettyItems (depth : Nat) : List Json → List Char
  | [] => indentation depth ++ [']']
  | x :: xs => ',' :: indentation (depth + 1) ++ prettyChars (depth + 1) x ++ prettyItems depth xs

def prettyFields (depth : Nat) : List (String × Json) → List Char
  | [] => indentation depth ++ ['\x7d']
  | (k, v) :: fs =>
    ',' :: indentation (depth + 1) ++ quote k ++ ':' :: ' ' :: prettyChars (depth + 1) v ++
      prettyFields depth fs
end

def pretty (j : Json) : String := String.ofList (prettyChars 0 j)

end RouteEngine.Json
