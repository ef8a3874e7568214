import Mathlib.Order.Bounds.Basic
import RouteEngine.Text.Distance

/-!
The edit distance as the length of a shortest script of edits. `distance` is the recursion that
the table of rows computes: each row holds the distances between one prefix of the first text,
read backwards, and every prefix of the second (`foldl_nextRow`). One edit changes a distance by
one at most, wherever it is made (`distance_le_of_edit`), so no script is shorter; and the
recursion spells out a script of this length (`edits_distance`). Being the least length of a
script makes the distance a metric, since scripts can be reversed and joined
(`editDistance_isLeast`).
-/

namespace RouteEngine.Text

/-- One character more, one less, or another one in its place, anywhere in the text. -/
inductive Edit : List Char → List Char → Prop
  | insert (s : List Char) (c : Char) (t : List Char) : Edit (s ++ t) (s ++ c :: t)
  | delete (s : List Char) (c : Char) (t : List Char) : Edit (s ++ c :: t) (s ++ t)
  | substitute (s : List Char) (c d : Char) (t : List Char) : Edit (s ++ c :: t) (s ++ d :: t)

/-- So many edits, one after another, turn the first text into the second. -/
inductive Edits : Nat → List Char → List Char → Prop
  | refl (s : List Char) : Edits 0 s s
  | step {n : Nat} {s t u : List Char} (first : Edit s t) (rest : Edits n t u) : Edits (n + 1) s u

/-! ### Scripts -/

variable {n m : Nat} {s t u : List Char}

theorem Edit.symm (h : Edit s t) : Edit t s := by
  cases h with
  | insert s c t => exact .delete s c t
  | delete s c t => exact .insert s c t
  | substitute s c d t => exact .substitute s d c t

theorem Edit.cons (c : Char) (h : Edit s t) : Edit (c :: s) (c :: t) := by
  cases h with
  | insert s d t => exact .insert (c :: s) d t
  | delete s d t => exact .delete (c :: s) d t
  | substitute s d e t => exact .substitute (c :: s) d e t

theorem Edit.reverse (h : Edit s t) : Edit s.reverse t.reverse := by
  cases h with
  | insert s c t => simpa using Edit.insert t.reverse c s.reverse
  | delete s c t => simpa using Edit.delete t.reverse c s.reverse
  | substitute s c d t => simpa using Edit.substitute t.reverse c d s.reverse

namespace Edits

theorem trans (h : Edits n s t) (h' : Edits m t u) : Edits (n + m) s u := by
  induction h with
  | refl s => rwa [Nat.zero_add]
  | step first _ ih =>
      rw [Nat.add_right_comm]
      exact .step first (ih h')

theorem symm (h : Edits n s t) : Edits n t s := by
  induction h with
  | refl s => exact .refl s
  | step first _ ih => exact ih.trans (.step first.symm (.refl _))

theorem cons (c : Char) (h : Edits n s t) : Edits n (c :: s) (c :: t) := by
  induction h with
  | refl s => exact .refl (c :: s)
  | step first _ ih => exact .step (first.cons c) ih

theorem reverse (h : Edits n s t) : Edits n s.reverse t.reverse := by
  induction h with
  | refl s => exact .refl s.reverse
  | step first _ ih => exact .step first.reverse ih

theorem reverse_iff : Edits n s.reverse t.reverse ↔ Edits n s t := by
  refine ⟨fun h => ?_, reverse⟩
  simpa using h.reverse

/-- Of two scripts the shorter one. -/
theorem shorter (h : Edits n s t) (h' : Edits m s t) : Edits (min n m) s t := by
  rcases Nat.le_total n m with hle | hle
  · rwa [Nat.min_eq_left hle]
  · rwa [Nat.min_eq_right hle]

theorem zero_iff : Edits 0 s t ↔ s = t := by
  constructor
  · rintro ⟨⟩
    rfl
  · rintro rfl
    exact .refl s

end Edits

/-! ### The recursion -/

/-- The distance of two texts from those of their rests: the first character is deleted, or one is
inserted before it, or it is kept or replaced. -/
def distance : List Char → List Char → Nat
  | [], t => t.length
  | c :: s, [] => (c :: s).length
  | c :: s, d :: t =>
    min (min (distance s (d :: t) + 1) (distance (c :: s) t + 1))
      (distance s t + if c = d then 0 else 1)
termination_by s t => s.length + t.length

theorem distance_nil_left (t : List Char) : distance [] t = t.length := by
  rw [distance]

theorem distance_nil_right (s : List Char) : distance s [] = s.length := by
  cases s <;> rw [distance]

theorem distance_cons_cons (c d : Char) (s t : List Char) :
    distance (c :: s) (d :: t) =
      min (min (distance s (d :: t) + 1) (distance (c :: s) t + 1))
        (distance s t + if c = d then 0 else 1) := by
  rw [distance]

/-- A text is deleted character by character. -/
theorem edits_length (s : List Char) : Edits s.length s [] := by
  induction s with
  | nil => exact .refl []
  | cons c s ih => exact .step (.delete [] c s) ih

/-- The recursion spells out a script: each of its three values is the length of one. -/
theorem edits_distance (s t : List Char) : Edits (distance s t) s t := by
  induction s generalizing t with
  | nil =>
      rw [distance_nil_left]
      exact (edits_length t).symm
  | cons c s ihs =>
      induction t with
      | nil =>
          rw [distance_nil_right]
          exact edits_length (c :: s)
      | cons d t iht =>
          have hdelete : Edits (distance s (d :: t) + 1) (c :: s) (d :: t) :=
            .step (.delete [] c s) (ihs (d :: t))
          have hinsert : Edits (distance (c :: s) t + 1) (c :: s) (d :: t) :=
            iht.trans (.step (.insert [] d t) (.refl _))
          have hkeep : Edits (distance s t + if c = d then 0 else 1) (c :: s) (d :: t) := by
            split
            · next hc =>
                subst hc
                exact (ihs t).cons c
            · exact .step (.substitute [] c d s) ((ihs t).cons d)
          rw [distance_cons_cons]
          exact (hdelete.shorter hinsert).shorter hkeep

/-! ### One edit -/

/-- What holds of two rests holds of the texts that a common beginning makes of them. -/
theorem distance_append_le (h : ∀ u, distance s u ≤ distance t u + 1) (pre u : List Char) :
    distance (pre ++ s) u ≤ distance (pre ++ t) u + 1 := by
  induction pre generalizing u with
  | nil => exact h u
  | cons c pre ih =>
      induction u with
      | nil =>
          have hlength := ih []
          simp only [distance_nil_right, List.cons_append, List.length_cons] at hlength ⊢
          omega
      | cons d u ihu =>
          have hdelete := ih (d :: u)
          have hkeep := ih u
          simp only [List.cons_append, distance_cons_cons] at ihu ⊢
          omega

theorem distance_cons_right_le (c : Char) (s t : List Char) :
    distance s (c :: t) ≤ distance s t + 1 := by
  cases s with
  | nil => simp [distance_nil_left]
  | cons d s =>
      rw [distance_cons_cons]
      omega

theorem distance_cons_left_le (c : Char) (s t : List Char) :
    distance (c :: s) t ≤ distance s t + 1 := by
  cases t with
  | nil => simp [distance_nil_right]
  | cons d t =>
      rw [distance_cons_cons]
      omega

theorem distance_le_cons_left (c : Char) (s t : List Char) :
    distance s t ≤ distance (c :: s) t + 1 := by
  induction t with
  | nil =>
      simp only [distance_nil_right, List.length_cons]
      omega
  | cons d t ih =>
      have hinsert := distance_cons_right_le d s t
      rw [distance_cons_cons]
      omega

theorem distance_cons_le (c d : Char) (s t : List Char) :
    distance (c :: s) t ≤ distance (d :: s) t + 1 := by
  induction t with
  | nil => simp [distance_nil_right]
  | cons e t ih =>
      rw [distance_cons_cons, distance_cons_cons]
      split <;> split <;> omega

/-- One edit brings no text nearer to another one by more than one. -/
theorem distance_le_of_edit (h : Edit s t) (u : List Char) : distance s u ≤ distance t u + 1 := by
  cases h with
  | insert pre c rest => exact distance_append_le (distance_le_cons_left c rest) pre u
  | delete pre c rest => exact distance_append_le (distance_cons_left_le c rest) pre u
  | substitute pre c d rest => exact distance_append_le (distance_cons_le c d rest) pre u

theorem distance_self (s : List Char) : distance s s = 0 := by
  induction s with
  | nil => rw [distance_nil_left, List.length_nil]
  | cons c s ih =>
      rw [distance_cons_cons, ih, if_pos rfl]
      omega

theorem distance_le_of_edits (h : Edits n s t) : distance s t ≤ n := by
  induction h with
  | refl s => exact (distance_self s).le
  | @step n s t u first _ ih =>
      have hfirst := distance_le_of_edit first u
      omega

/-! ### The table -/

/-- The entries of the row for `r` behind the one for `q`: the column texts grow by one character
each. Both texts are kept in reverse. -/
def rowBehind (r : List Char) : (q : List Char) → List Char → List Nat
  | _, [] => []
  | q, d :: ds => distance r (d :: q) :: rowBehind r (d :: q) ds

/-- The row for `r`: its distances from all prefixes of `b`. -/
def row (r b : List Char) : List Nat := distance r [] :: rowBehind r [] b

theorem fillRow_rowBehind (c : Char) (r q ds : List Char) :
    fillRow c (distance (c :: r) q) (distance r q) ds (rowBehind r q ds) =
      rowBehind (c :: r) q ds := by
  induction ds generalizing q with
  | nil => rfl
  | cons d ds ih => simp only [rowBehind, fillRow, ← distance_cons_cons, ih]

theorem nextRow_row (c : Char) (r b : List Char) : nextRow c b (row r b) = row (c :: r) b := by
  have hfirst : distance (c :: r) [] = distance r [] + 1 := by
    simp only [distance_nil_right, List.length_cons]
  simp only [row, nextRow, ← hfirst, fillRow_rowBehind]

theorem foldl_nextRow (a r b : List Char) :
    a.foldl (fun row c => nextRow c b row) (row r b) = row (a.reverse ++ r) b := by
  induction a generalizing r with
  | nil => rfl
  | cons c a ih => rw [List.foldl_cons, nextRow_row, ih, List.reverse_cons, List.append_assoc,
      List.singleton_append]

theorem rowBehind_nil_left (q ds : List Char) :
    rowBehind [] q ds = List.range' (q.length + 1) ds.length := by
  induction ds generalizing q with
  | nil => rfl
  | cons d ds ih => rw [rowBehind, ih, distance_nil_left, List.length_cons, List.length_cons,
      List.range'_succ]

/-- The row to start from: prefixes are as far from nothing as they are long. -/
theorem row_nil (b : List Char) : row [] b = List.range (b.length + 1) := by
  rw [row, rowBehind_nil_left, distance_nil_left, List.length_nil, List.range_eq_range',
    List.range'_succ]

theorem getLast?_rowBehind (r q ds : List Char) :
    (distance r q :: rowBehind r q ds).getLast? = some (distance r (ds.reverse ++ q)) := by
  induction ds generalizing q with
  | nil => rfl
  | cons d ds ih => rw [rowBehind, List.getLast?_cons_cons, ih, List.reverse_cons, List.append_assoc,
      List.singleton_append]

theorem editDistance_eq (a b : String) :
    editDistance a b = distance a.toList.reverse b.toList.reverse := by
  rw [editDistance, distanceRow, ← row_nil, foldl_nextRow, row, getLast?_rowBehind,
    List.append_nil, List.append_nil, Option.getD_some]

/-! ### The least number of edits -/

theorem edits_editDistance (a b : String) : Edits (editDistance a b) a.toList b.toList := by
  rw [editDistance_eq, ← Edits.reverse_iff]
  exact edits_distance _ _

theorem editDistance_le {a b : String} (h : Edits n a.toList b.toList) : editDistance a b ≤ n := by
  rw [editDistance_eq]
  exact distance_le_of_edits h.reverse

/-- The edit distance is the least number of insertions, deletions and substitutions that turn one
text into the other. So it is zero for equal texts only, the same both ways, and no longer than a
way over a third text. -/
theorem editDistance_isLeast (a b : String) :
    IsLeast {n | Edits n a.toList b.toList} (editDistance a b) ∧
    (editDistance a b = 0 ↔ a = b) ∧
    editDistance a b = editDistance b a ∧
    ∀ c, editDistance a b ≤ editDistance a c + editDistance c b := by
  refine ⟨⟨edits_editDistance a b, fun n => editDistance_le⟩, ?_, ?_, fun c => ?_⟩
  · constructor
    · intro hzero
      have hsame := edits_editDistance a b
      rw [hzero, Edits.zero_iff] at hsame
      exact String.toList_injective hsame
    · rintro rfl
      exact Nat.le_zero.1 (editDistance_le (.refl _))
  · exact Nat.le_antisymm (editDistance_le (edits_editDistance b a).symm)
      (editDistance_le (edits_editDistance a b).symm)
  · exact editDistance_le ((edits_editDistance a c).trans (edits_editDistance c b))

-- Two characters that change places count as two edits.
example : editDistance "projcet" "project" = 2 := by decide +kernel

end RouteEngine.Text
