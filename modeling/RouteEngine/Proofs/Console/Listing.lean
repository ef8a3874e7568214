import Mathlib.Data.List.Forall2
import Mathlib.Data.String.Basic
import RouteEngine.Console.Listing
import RouteEngine.Proofs.Text.Split

/-!
Listings of routes are aligned. A column is as wide as the bytes of its widest cell and its cells
are padded by characters, of which no cell has more than bytes (`length_le_width`), so that a padded
cell has the same length on every line (`length_padStart`, `length_padEnd`). The blanks that are cut
from the end of a line stand behind the last column, and there are none where the endpoint ends
visibly (`line_eq`).
-/

namespace RouteEngine.Listing

open Text

variable {n : Nat} {s : List Char}

/-! ### Widths -/

/-- Every character takes up a byte at least. -/
theorem length_le_utf8Len (s : List Char) : s.length ≤ String.utf8Len s := by
  induction s with
  | nil => exact Nat.le_refl 0
  | cons c s ih =>
      rw [List.length_cons, String.utf8Len_cons]
      exact Nat.add_le_add ih c.utf8Size_pos

theorem length_le_width {cells : List String} {cell : String} (h : cell ∈ cells) :
    cell.toList.length ≤ width cells := by
  have hbytes : cell.toList.length ≤ cell.utf8ByteSize := by
    rw [← String.utf8Len_toList]
    exact length_le_utf8Len cell.toList
  rw [width, List.foldl_max]
  exact le_max_of_le_right (hbytes.trans (List.le_max?_getD_of_mem (List.mem_map_of_mem h)))

theorem length_padStart (h : s.length ≤ n) : (padStart n s).length = n := by
  rw [padStart, blanks, List.length_append, List.length_replicate, Nat.sub_add_cancel h]

theorem length_padEnd (h : s.length ≤ n) : (padEnd n s).length = n := by
  rw [padEnd, blanks, List.length_append, List.length_replicate, Nat.add_sub_cancel' h]

theorem padEnd_concat (n : Nat) (s : List Char) :
    padEnd n s ++ [' '] = s ++ blanks (n - s.length + 1) := by
  rw [padEnd, List.append_assoc, blanks, blanks, List.replicate_succ']

/-! ### Lines -/

/-- All texts of a row. -/
def cells (r : RouteDescription) : List String :=
  r.name :: r.verbs :: r.path :: r.endpoint :: r.constraints

/-- A row that fits on one line and whose endpoint ends in a character that can be seen. -/
structure Listed (r : RouteDescription) : Prop where
  unbroken : ∀ cell ∈ cells r, '\n' ∉ cell.toList
  visible : ∃ c, r.endpoint.toList.getLast? = some c ∧ isWhite c.toNat = false

/-- Where the columns behind the names begin. -/
structure Columns where
  verbs : Nat
  path : Nat
  endpoint : Nat

/-- The line shows a row: the whole name right in front of the blank before the verbs, and the
other cells whole from their columns on, with nothing but blanks up to the next one. -/
structure Shows (c : Columns) (r : RouteDescription) (l : List Char) : Prop where
  name : ∃ n, l.take c.verbs = blanks n ++ r.name.toList ++ [' ']
  verbs : ∃ n, (l.take c.path).drop c.verbs = r.verbs.toList ++ blanks (n + 1)
  path : ∃ n, (l.take c.endpoint).drop c.path = r.path.toList ++ blanks (n + 1)
  endpoint : l.drop c.endpoint = r.endpoint.toList ++ constraintText r.constraints
  ordered : c.verbs ≤ c.path ∧ c.path ≤ c.endpoint ∧ c.endpoint ≤ l.length

def Widths.columns (w : Widths) : Columns where
  verbs := w.name + 1
  path := w.name + 1 + (w.verbs + 1)
  endpoint := w.name + 1 + (w.verbs + 1) + (w.path + 1)

/-- No cell of the row is wider than its column. -/
structure Widths.Holds (w : Widths) (r : RouteDescription) : Prop where
  name : r.name.toList.length ≤ w.name
  verbs : r.verbs.toList.length ≤ w.verbs
  path : r.path.toList.length ≤ w.path

variable {w : Widths} {r : RouteDescription} {rs : List RouteDescription}

theorem holds_ofRows (h : r ∈ rs) : (Widths.ofRows rs).Holds r where
  name := length_le_width (List.mem_map_of_mem h)
  verbs := length_le_width (List.mem_map_of_mem h)
  path := length_le_width (List.mem_map_of_mem h)

theorem getLast?_constraintText {cs : List String} (h : cs ≠ []) :
    (constraintText cs).getLast? = some '\x7d' := by
  rw [constraintText, if_neg (by simpa using h), List.getLast?_concat]

/-- The end of a line can be seen, be it that of the endpoint or the brace behind constraints. -/
theorem isWhite_getLast? (h : Listed r) {before : List Char} {c : Char}
    (hc : (before ++ r.endpoint.toList ++ constraintText r.constraints).getLast? = some c) :
    isWhite c.toNat = false := by
  obtain ⟨last, hlast, hvisible⟩ := h.visible
  rw [List.getLast?_append, List.getLast?_append, hlast] at hc
  by_cases hcs : r.constraints = []
  · rw [hcs] at hc
    obtain rfl : last = c := Option.some.inj hc
    exact hvisible
  · rw [getLast?_constraintText hcs] at hc
    obtain rfl : '\x7d' = c := Option.some.inj hc
    decide

/-- A line in its parts, with the blank behind each of them. Nothing is cut from its end. -/
theorem line_eq (w : Widths) (h : Listed r) :
    line w r =
      (padStart w.name r.name.toList ++ [' ']) ++ (padEnd w.verbs r.verbs.toList ++ [' ']) ++
        (padEnd w.path r.path.toList ++ [' ']) ++
          (r.endpoint.toList ++ constraintText r.constraints) := by
  have hparts : ∀ name verbs path endpoint constraints : List Char,
      name ++ ' ' :: verbs ++ ' ' :: path ++ ' ' :: endpoint ++ constraints =
        name ++ [' '] ++ (verbs ++ [' ']) ++ (path ++ [' ']) ++ endpoint ++ constraints := by
    simp
  rw [line, hparts, trimEnd_eq_self fun c => isWhite_getLast? h, List.append_assoc _ _
    (constraintText r.constraints)]

/-- What stands in a line between the places where its parts begin. -/
theorem parts_of_length {line a b c d : List Char} {i j k : Nat} (hline : line = a ++ b ++ c ++ d)
    (hi : a.length = i) (hj : i + b.length = j) (hk : j + c.length = k) :
    line.take i = a ∧ (line.take j).drop i = b ∧ (line.take k).drop j = c ∧ line.drop k = d ∧
      k ≤ line.length := by
  subst hline hi hj hk
  rw [← List.length_append, ← List.length_append]
  refine ⟨?_, ?_, ?_, List.drop_left, ?_⟩
  · rw [List.append_assoc, List.append_assoc, List.take_left]
  · rw [List.append_assoc, List.take_left, List.drop_left]
  · rw [List.take_left, List.drop_left]
  · simp only [List.length_append, Nat.le_add_right]

theorem shows_line (hw : w.Holds r) (h : Listed r) : Shows w.columns r (line w r) := by
  have hnames : (padStart w.name r.name.toList ++ [' ']).length = w.columns.verbs := by
    rw [List.length_append, length_padStart hw.name]
    rfl
  have hverbs : w.columns.verbs + (padEnd w.verbs r.verbs.toList ++ [' ']).length =
      w.columns.path := by
    rw [List.length_append, length_padEnd hw.verbs]
    rfl
  have hpaths : w.columns.path + (padEnd w.path r.path.toList ++ [' ']).length =
      w.columns.endpoint := by
    rw [List.length_append, length_padEnd hw.path]
    rfl
  obtain ⟨hname, hverb, hpath, hendpoint, hlength⟩ :=
    parts_of_length (line_eq w h) hnames hverbs hpaths
  rw [padEnd_concat] at hverb hpath
  exact {
    name := ⟨_, hname⟩
    verbs := ⟨_, hverb⟩
    path := ⟨_, hpath⟩
    endpoint := hendpoint
    ordered := ⟨Nat.le_add_right _ _, Nat.le_add_right _ _, hlength⟩ }

/-! ### Line breaks -/

theorem not_mem_blanks (n : Nat) : '\n' ∉ blanks n := by
  rw [blanks, List.mem_replicate]
  rintro ⟨-, h⟩
  exact absurd h (by decide)

theorem not_mem_constraintText {cs : List String} (h : ∀ s ∈ cs, '\n' ∉ s.toList) :
    '\n' ∉ constraintText cs := by
  have hjoined : '\n' ∉ (", ".intercalate cs).toList := by
    rw [toList_intercalate]
    intro hmem
    rcases mem_join hmem with hsep | ⟨p, hp, hmem⟩
    · exact absurd hsep (by decide)
    · obtain ⟨s, hs, rfl⟩ := List.mem_map.1 hp
      exact h s hs hmem
  rw [constraintText]
  split
  · exact List.not_mem_nil
  · rw [List.mem_append, List.mem_cons, List.mem_cons]
    simpa using hjoined

theorem not_mem_line (h : Listed r) : '\n' ∉ line w r := by
  obtain ⟨hname, hverbs, hpath, hendpoint, hconstraints⟩ := by simpa [cells] using h.unbroken
  have hconstraint := not_mem_constraintText hconstraints
  simp [line_eq w h, padStart, padEnd, not_mem_blanks, hname, hverbs, hpath, hendpoint, hconstraint]

/-! ### Listings -/

theorem listed_header : Listed header where
  unbroken := by decide
  visible := ⟨'t', by decide, by decide⟩

/-- A listing has a line for the header and then one for every row, and on all of them the columns
begin at the same characters, whatever number of bytes the cells have. -/
theorem format_aligned (h : ∀ r ∈ rs, Listed r) :
    ∃ (c : Columns) (lines : List (List Char)),
      pieces '\n' (format rs).toList = lines ++ [[]] ∧
        List.Forall₂ (Shows c) (header :: rs) lines := by
  have hall : ∀ r ∈ header :: rs, Listed r := List.forall_mem_cons.2 ⟨listed_header, h⟩
  let w := Widths.ofRows (header :: rs)
  have hbreak : ∀ l ∈ (header :: rs).map (line w), '\n' ∉ l := by
    intro l hl
    obtain ⟨r, hr, rfl⟩ := List.mem_map.1 hl
    exact not_mem_line (hall r hr)
  refine ⟨w.columns, (header :: rs).map (line w), ?_, ?_⟩
  · rw [← pieces_flatMap hbreak, List.flatMap_map, format, String.toList_ofList]
  · rw [List.forall₂_map_right_iff, List.forall₂_same]
    exact fun r hr => shows_line (holds_ofRows hr) (hall r hr)

/-- A path with characters of several bytes, a row without a name and one with constraints. -/
theorem format_aligned_cafes :
    let rs : List RouteDescription := [
      ⟨"café", "GET", "/cafés/:id", "cafés#show", ["subdomain: \"admin\"", "port: 80"]⟩,
      ⟨"", "GET|POST", "/", "home#index", []⟩]
    (∀ r ∈ rs, Listed r) ∧
      ∃ (c : Columns) (lines : List (List Char)),
        pieces '\n' (format rs).toList = lines ++ [[]] ∧
          List.Forall₂ (Shows c) (header :: rs) lines := by
  intro rs
  have hlisted : ∀ r ∈ rs, Listed r := by
    intro r hr
    rcases List.mem_cons.1 hr with rfl | hr
    · exact ⟨by decide, 'w', by decide, by decide⟩
    · obtain rfl := List.mem_singleton.1 hr
      exact ⟨by decide, 'x', by decide, by decide⟩
  exact ⟨hlisted, format_aligned hlisted⟩

-- The path has one byte more than characters, so its column is one blank wider than it had to be.
example :
    format [⟨"cafés", "GET", "/cafés", "cafés#index", []⟩] =
      "  Name Verb Path    Endpoint\n cafés GET  /cafés  cafés#index\n" := by
  decide +kernel

end RouteEngine.Listing
