import RouteEngine.Json.Printer
import RouteEngine.Table.Basic
import RouteEngine.Text.White

/-!
Listings of routes as aligned columns or as JSON. The width of a column counts the bytes of its
widest cell, and cells are padded by characters, so a column is never too narrow.
-/

namespace RouteEngine.Listing

/-- The rows of a table whose name, path or endpoint has `needle` in it. -/
def rows {σ : Type} (t : Table σ) (needle : Option String) : List RouteDescription :=
  let all := t.routes.map Route.describe
  match needle with
  | none => all
  | some n =>
    all.filter fun r => [r.name, r.path, r.endpoint].any fun s => Text.contains n.toList s.toList

def header : RouteDescription :=
  { name := "Name", verbs := "Verb", path := "Path", endpoint := "Endpoint", constraints := [] }

/-- The greatest number of bytes in any of the cells. -/
def width (cells : List String) : Nat := (cells.map String.utf8ByteSize).foldl max 0

def blanks (n : Nat) : List Char := List.replicate n ' '

def padStart (n : Nat) (s : List Char) : List Char := blanks (n - s.length) ++ s

def padEnd (n : Nat) (s : List Char) : List Char := s ++ blanks (n - s.length)

structure Widths where
  name : Nat
  verbs : Nat
  path : Nat

def Widths.ofRows (rs : List RouteDescription) : Widths where
  name := width (rs.map (·.name))
  verbs := width (rs.map (·.verbs))
  path := width (rs.map (·.path))

/-- The constraints in braces behind the endpoint, nothing when there are none. -/
def constraintText (cs : List String) : List Char :=
  if cs.isEmpty then [] else ' ' :: '\x7b' :: (", ".intercalate cs).toList ++ ['\x7d']

def line (w : Widths) (r : RouteDescription) : List Char :=
  let cells := padStart w.name r.name.toList ++ ' ' :: padEnd w.verbs r.verbs.toList ++
    ' ' :: padEnd w.path r.path.toList ++ ' ' :: r.endpoint.toList
  Text.trimEnd (fun c => Text.isWhite c.toNat) (cells ++ constraintText r.constraints)

/-- A line for the header and one for every row. -/
def format (rs : List RouteDescription) : String :=
  let all := header :: rs
  String.ofList (all.flatMap fun r => line (Widths.ofRows all) r ++ ['\n'])

def rowJson (r : RouteDescription) : Json :=
  .object [("name", .string r.name), ("verbs", .string r.verbs), ("path", .string r.path),
    ("endpoint", .string r.endpoint), ("constraints", Json.strings r.constraints)]

/-- What a listing prints. -/
def text (rs : List RouteDescription) (asJson : Bool) : String :=
  if asJson then (Json.array (rs.map rowJson)).pretty ++ "\n"
  else if rs.isEmpty then "No routes found.\n"
  else format rs

end RouteEngine.Listing
