/-!
UTF-8 as lists of bytes. `encode` writes every text; `decode` reads exactly the byte lists that
`encode` writes, so overlong forms, surrogates and stray continuation bytes are refused.
-/

namespace RouteEngine.Text.Utf8

def encodeChar (c : Char) : List UInt8 :=
  let n := c.toNat
  if n < 0x80 then [UInt8.ofNat n]
  else if n < 0x800 then [UInt8.ofNat (0xC0 + n / 64), UInt8.ofNat (0x80 + n % 64)]
  else if n < 0x10000 then
    [UInt8.ofNat (0xE0 + n / 4096), UInt8.ofNat (0x80 + n / 64 % 64), UInt8.ofNat (0x80 + n % 64)]
  else
    [UInt8.ofNat (0xF0 + n / 262144), UInt8.ofNat (0x80 + n / 4096 % 64),
      UInt8.ofNat (0x80 + n / 64 % 64), UInt8.ofNat (0x80 + n % 64)]

def encode (s : List Char) : List UInt8 := s.flatMap encodeChar

/-- The six payload bits of a continuation byte. -/
def tail? (b : UInt8) : Option Nat :=
  if 0x80 ≤ b.toNat ∧ b.toNat < 0xC0 then some (b.toNat - 0x80) else none

/-- The character with number `n`, provided that `n` needs no fewer bytes than it came in. -/
def scalar? (least n : Nat) : Option Char :=
  if h : n.isValidChar then
    if least ≤ n then some (Char.ofNatAux n h) else none
  else none

def two? (a b : UInt8) : Option Char := do
  let y ← tail? b
  scalar? 0x80 ((a.toNat - 0xC0) * 64 + y)

def three? (a b c : UInt8) : Option Char := do
  let y ← tail? b
  let z ← tail? c
  scalar? 0x800 (((a.toNat - 0xE0) * 64 + y) * 64 + z)

def four? (a b c d : UInt8) : Option Char := do
  let y ← tail? b
  let z ← tail? c
  let w ← tail? d
  scalar? 0x10000 ((((a.toNat - 0xF0) * 64 + y) * 64 + z) * 64 + w)

def decode : List UInt8 → Option (List Char)
  | [] => some []
  | a :: r =>
    if a.toNat < 0x80 then (decode r).map (Char.ofNat a.toNat :: ·)
    else if a.toNat < 0xC0 then none
    else if a.toNat < 0xE0 then
      match r with
      | b :: r => (two? a b).bind fun ch => (decode r).map (ch :: ·)
      | _ => none
    else if a.toNat < 0xF0 then
      match r with
      | b :: c :: r => (three? a b c).bind fun ch => (decode r).map (ch :: ·)
      | _ => none
    else if a.toNat < 0xF8 then
      match r with
      | b :: c :: d :: r => (four? a b c d).bind fun ch => (decode r).map (ch :: ·)
      | _ => none
    else none

end RouteEngine.Text.Utf8
