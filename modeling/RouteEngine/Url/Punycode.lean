/-!
Names of hosts in ASCII. A label with other characters is written as its ASCII characters and a
series of insertions, each the distance from the one before it in digits of a varying base.
-/

namespace RouteEngine.Url.Punycode

def digitChar (d : Nat) : Char := if d < 26 then Char.ofNat (97 + d) else Char.ofNat (22 + d)

/-- The base of the digits adapts to the size of the distances. -/
def shrink : Nat → Nat → Nat → Nat
  | 0, delta, k => k + 36 * delta / (delta + 38)
  | n + 1, delta, k =>
    if 455 < delta then shrink n (delta / 35) (k + 36) else k + 36 * delta / (delta + 38)

def adapt (delta points : Nat) (first : Bool) : Nat :=
  let delta := if first then delta / 700 else delta / 2
  shrink 32 (delta + delta / points) 0

def threshold (k bias : Nat) : Nat :=
  if k ≤ bias then 1 else if bias + 26 ≤ k then 26 else k - bias

def digits (bias : Nat) : Nat → Nat → Nat → List Char
  | 0, _, _ => []
  | n + 1, k, q =>
    let t := threshold k bias
    if q < t then [digitChar q]
    else digitChar (t + (q - t) % (36 - t)) :: digits bias n (k + 36) ((q - t) / (36 - t))

structure State where
  delta : Nat
  bias : Nat
  handled : Nat
  out : List Char

/-- Writes the insertions of the character `m` while the label is gone through once. -/
def insertions (m basic : Nat) (s : State) (c : Nat) : State :=
  if c < m then { s with delta := s.delta + 1 }
  else if c = m then
    { delta := 0
      bias := adapt s.delta (s.handled + 1) (s.handled = basic)
      handled := s.handled + 1
      out := s.out ++ digits s.bias 64 36 s.delta }
  else s

def rounds (label : List Nat) (basic : Nat) : Nat → Nat → State → List Char
  | 0, _, s => s.out
  | n + 1, at_, s =>
    match (label.filter (at_ ≤ ·)).min? with
    | none => s.out
    | some m =>
      let s := { s with delta := s.delta + (m - at_) * (s.handled + 1) }
      let s := label.foldl (insertions m basic) s
      rounds label basic n (m + 1) { s with delta := s.delta + 1 }

def encode (label : List Char) : List Char :=
  let basic := label.filter fun c => c.toNat < 128
  let start := if basic.isEmpty then [] else basic ++ ['-']
  rounds (label.map Char.toNat) basic.length (label.length + 1) 128
    ⟨0, 72, basic.length, start⟩

end RouteEngine.Url.Punycode
