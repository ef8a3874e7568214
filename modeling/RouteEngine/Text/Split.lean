/-!
Cutting and trimming text as lists of characters. Every splitter keeps what it cuts: joining
the pieces with the separator gives the text back, and that is all the callers rely on.
-/

namespace RouteEngine.Text

/-- Cuts at the first `sep`, which belongs to neither side. -/
def splitFirst (sep : Char) : List Char → Option (List Char × List Char)
  | [] => none
  | c :: r =>
    if c = sep then some ([], r)
    else (splitFirst sep r).map fun p => (c :: p.1, p.2)

/-- Cuts at the last `sep`. -/
def splitLast (sep : Char) : List Char → Option (List Char × List Char)
  | [] => none
  | c :: r =>
    match splitLast sep r with
    | some p => some (c :: p.1, p.2)
    | none => if c = sep then some ([], r) else none

/-- All pieces between the separators: one more than there are separators. -/
def pieces (sep : Char) : List Char → List (List Char)
  | [] => [[]]
  | c :: r =>
    if c = sep then [] :: pieces sep r
    else
      match pieces sep r with
      | [] => [[c]]
      | p :: ps => (c :: p) :: ps

def trimStart (p : Char → Bool) (s : List Char) : List Char := s.dropWhile p

def trimEnd (p : Char → Bool) (s : List Char) : List Char := (s.reverse.dropWhile p).reverse

def trim (p : Char → Bool) (s : List Char) : List Char := trimEnd p (trimStart p s)

/-- The rest of `s` after `pre`, when `s` starts with it. -/
def dropPrefix? : List Char → List Char → Option (List Char)
  | [], s => some s
  | _ :: _, [] => none
  | p :: pre, c :: s => if p = c then dropPrefix? pre s else none

/-- The part of `s` before `suf`, when `s` ends with it. -/
def dropSuffix? (suf s : List Char) : Option (List Char) :=
  (dropPrefix? suf.reverse s.reverse).map List.reverse

/-- Drops `word` from the front as often as it stands there. -/
def trimStartWord (word s : List Char) : List Char :=
  go s.length s
where
  go : Nat → List Char → List Char
    | 0, s => s
    | n + 1, s =>
      match dropPrefix? word s with
      | some r => go n r
      | none => s

/-- Drops `word` from the end as often as it stands there. -/
def trimEndWord (word s : List Char) : List Char :=
  (trimStartWord word.reverse s.reverse).reverse

def startsWith (pre s : List Char) : Bool := (dropPrefix? pre s).isSome

def endsWith (suf s : List Char) : Bool := (dropSuffix? suf s).isSome

/-- The parts around the first place where `word` stands in the text. -/
def splitAtWord (word : List Char) : List Char → Option (List Char × List Char)
  | [] => (dropPrefix? word []).map fun r => ([], r)
  | c :: s =>
    match dropPrefix? word (c :: s) with
    | some r => some ([], r)
    | none => (splitAtWord word s).map fun p => (c :: p.1, p.2)

def contains (word s : List Char) : Bool := (splitAtWord word s).isSome

def join (sep : List Char) : List (List Char) → List Char
  | [] => []
  | [p] => p
  | p :: q :: ps => p ++ sep ++ join sep (q :: ps)

@[simp] theorem dropPrefix?_nil (s : List Char) : dropPrefix? [] s = some s := by
  cases s <;> rfl

theorem dropPrefix?_append (pre r : List Char) : dropPrefix? pre (pre ++ r) = some r := by
  induction pre with
  | nil => simp
  | cons c pre ih => simp [dropPrefix?, ih]

theorem eq_append_of_dropPrefix? {pre s r : List Char} (h : dropPrefix? pre s = some r) :
    s = pre ++ r := by
  induction pre generalizing s with
  | nil => simpa using h
  | cons p pre ih =>
    cases s with
    | nil => simp [dropPrefix?] at h
    | cons c s =>
      by_cases hc : p = c
      · simp [dropPrefix?, hc] at h
        simp [hc, ih h]
      · simp [dropPrefix?, hc] at h

theorem pieces_ne_nil (sep : Char) (s : List Char) : pieces sep s ≠ [] := by
  cases s with
  | nil => simp [pieces]
  | cons c r =>
    by_cases h : c = sep
    · simp [pieces, h]
    · simp only [pieces, h, if_false]
      split <;> simp

/-- Cutting loses nothing but the separators. -/
theorem join_pieces (sep : Char) (s : List Char) : join [sep] (pieces sep s) = s := by
  induction s with
  | nil => rfl
  | cons c r ih =>
    by_cases h : c = sep
    · subst h
      simp only [pieces, if_true]
      cases hp : pieces c r with
      | nil => exact absurd hp (pieces_ne_nil c r)
      | cons p ps => simp [join, ← hp, ih]
    · simp only [pieces, h, if_false]
      cases hp : pieces sep r with
      | nil => exact absurd hp (pieces_ne_nil sep r)
      | cons p ps =>
        rw [hp] at ih
        cases ps with
        | nil => simpa [join] using ih
        | cons q qs => simpa [join] using ih

end RouteEngine.Text
