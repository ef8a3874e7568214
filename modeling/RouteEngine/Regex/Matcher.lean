import RouteEngine.Regex.Basic

/-!
Matching. `ends` lists the places where a match that begins at a given place may end, the
preferred one first and each place once; what follows an expression picks the first that it can
go on from. A search tries the places of the text from left to right.
-/

namespace RouteEngine.Regex

/-- A place in a text: its number, the character before it and all that follow it. -/
structure Place where
  index : Nat
  prev : Option Char
  rest : List Char
  deriving Repr

/-- A group with the two places between which it matched. -/
structure Span where
  group : Nat
  first : Nat
  last : Nat
  deriving DecidableEq, Repr

/-- A match by its length, with the groups in the order in which they were closed. -/
structure Hit where
  length : Nat
  spans : List Span
  deriving DecidableEq, Repr

namespace Place

def start (text : List Char) : Place := ⟨0, none, text⟩

/-- The place `n` characters further on. -/
def advance (p : Place) : Nat → Place
  | 0 => p
  | n + 1 =>
    match p.rest with
    | [] => p
    | c :: r => (Place.mk (p.index + 1) (some c) r).advance n

end Place

/-- Keeps the first hit of each length. -/
def dedup : List Hit → List Hit
  | [] => []
  | h :: hs => h :: (dedup hs).filter fun k => k.length ≠ h.length

def Hit.andThen (h k : Hit) : Hit := ⟨h.length + k.length, h.spans ++ k.spans⟩

def nothing : Hit := ⟨0, []⟩

/-- A round that takes up characters, alone or with the rounds that may follow it; `later` lists
those for each of the places behind its first character. -/
def onward (greedy : Bool) (later : List (List Hit)) (h : Hit) : List Hit :=
  if h.length = 0 then []
  else
    let more := (later.getD (h.length - 1) []).map h.andThen
    if greedy then more ++ [h] else h :: more

/-- The hits of one further round or more, for a place and for every later one. A further round
takes up a character: one that does not would lead back to where it began. -/
def rounds (step : Place → List Hit) (greedy : Bool) (index : Nat) (prev : Option Char) :
    (rest : List Char) → List (List Hit)
  | [] => [[]]
  | c :: r =>
    let later := rounds step greedy (index + 1) (some c) r
    dedup ((step ⟨index, prev, c :: r⟩).flatMap (onward greedy later)) :: later

/-- The hits of one round or more. A first round that takes up no character is the only one. -/
def firstRound (step : Place → List Hit) (greedy : Bool) (p : Place) : List Hit :=
  let later :=
    match p.rest with
    | [] => []
    | c :: r => rounds step greedy (p.index + 1) (some c) r
  dedup ((step p).flatMap fun h => if h.length = 0 then [h] else onward greedy later h)

def ends : Regex → Place → List Hit
  | empty, _ => [nothing]
  | chars c, p =>
    match p.rest with
    | [] => []
    | ch :: _ => if c.holds ch then [⟨1, []⟩] else []
  | look l, p => if l.holds p.prev p.rest.head? then [nothing] else []
  | concat a b, p =>
    dedup ((ends a p).flatMap fun h => (ends b (p.advance h.length)).map h.andThen)
  | alt a b, p => dedup (ends a p ++ ends b p)
  | plus greedy a, p => firstRound (fun q => ends a q) greedy p
  | opt greedy a, p => dedup (if greedy then ends a p ++ [nothing] else nothing :: ends a p)
  | group i a, p =>
    (ends a p).map fun h => ⟨h.length, h.spans ++ [⟨i, p.index, p.index + h.length⟩]⟩

/-- A match found in a text. -/
structure Found where
  first : Nat
  hit : Hit
  deriving Repr

def searchFrom (r : Regex) (index : Nat) (prev : Option Char) : (rest : List Char) → Option Found
  | [] => (ends r ⟨index, prev, []⟩).head?.map fun h => ⟨index, h⟩
  | c :: cs =>
    match ends r ⟨index, prev, c :: cs⟩ with
    | h :: _ => some ⟨index, h⟩
    | [] => searchFrom r (index + 1) (some c) cs

/-- The leftmost match and, of those that begin there, the preferred one. -/
def search (r : Regex) (text : List Char) : Option Found := searchFrom r 0 none text

def isMatch (r : Regex) (text : List Char) : Bool := (search r text).isSome

def slice (text : List Char) (first last : Nat) : List Char := (text.take last).drop first

def Found.last (f : Found) : Nat := f.first + f.hit.length

/-- What the group matched: in a repetition, what it matched last. -/
def Found.group? (f : Found) (text : List Char) (i : Nat) : Option (List Char) :=
  (f.hit.spans.findRev? fun s => s.group = i).map fun s => slice text s.first s.last

end RouteEngine.Regex
