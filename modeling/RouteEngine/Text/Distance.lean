/-!
The edit distance between two texts and the closest of a list of names. The distance is
computed row by row: each row holds the distances between one prefix of the first text and
every prefix of the second.
-/

namespace RouteEngine.Text

/-- The rest of a row, given the entry to the left of it and the entry above that one. -/
def fillRow (c : Char) (left corner : Nat) : List Char → List Nat → List Nat
  | d :: ds, up :: ups =>
    let entry := min (min (up + 1) (left + 1)) (corner + if c = d then 0 else 1)
    entry :: fillRow c entry up ds ups
  | _, _ => []

/-- The row below `row`, for one more character `c` of the first text. -/
def nextRow (c : Char) (b : List Char) : List Nat → List Nat
  | [] => []
  | corner :: ups => (corner + 1) :: fillRow c (corner + 1) corner b ups

def distanceRow (a b : List Char) : List Nat :=
  a.foldl (fun row c => nextRow c b row) (List.range (b.length + 1))

/-- The least number of insertions, deletions and substitutions that turn `a` into `b`. -/
def editDistance (a b : String) : Nat :=
  (distanceRow a.toList b.toList).getLast?.getD 0

/-- One text begins the other. -/
def areNested (a b : String) : Bool :=
  a.toList.isPrefixOf b.toList || b.toList.isPrefixOf a.toList

/-- A third of the length, rounded up: as far as a misspelling may be from its name. -/
def tolerance (target : String) : Nat := (target.length + 2) / 3

def isCandidate (target name : String) : Bool :=
  editDistance target name ≤ tolerance target || areNested target name

/-- The closest candidate, the earliest of those at the least distance. -/
def closest (target : String) : List String → Option String
  | [] => none
  | name :: rest =>
    match closest target rest with
    | none => if isCandidate target name then some name else none
    | some other =>
      if isCandidate target name && editDistance target name ≤ editDistance target other then
        some name
      else some other

def suggest (target : String) (names : List String) : Option String :=
  if target = "" then none else closest target names

end RouteEngine.Text
