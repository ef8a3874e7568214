/-!
White space: the characters of that name in the character standard, most of them beyond ASCII.
-/

namespace RouteEngine.Text

def isWhite (n : Nat) : Bool :=
  (9 ≤ n && n ≤ 13) || n = 0x20 || n = 0x85 || n = 0xA0 || n = 0x1680 ||
    (0x2000 ≤ n && n ≤ 0x200A) || n = 0x2028 || n = 0x2029 || n = 0x202F || n = 0x205F || n = 0x3000

end RouteEngine.Text
