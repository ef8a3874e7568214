import RouteEngine.Json.Basic

/-!
Trees of tables under construction. A table is opened once by a header, or grows by dotted keys,
or is there only because something inside it was opened; which of these it is decides what may
still be added to it.
-/

namespace RouteEngine.Toml

inductive TableKind
  /-- Opened by a header. -/
  | opened
  /-- There because of a table inside it, and may still be opened. -/
  | implied
  /-- Grown by dotted keys. -/
  | dotted
  deriving DecidableEq

inductive Node
  | value (v : Json)
  | table (kind : TableKind) (fields : List (String × Node))
  /-- A list of tables, the newest first. -/
  | tables (items : List (List (String × Node)))

namespace Node

mutual
def toJson : Node → Json
  | value v => v
  | table _ fields => .object (fieldsJson fields)
  | tables items => .array (itemsJson [] items)

def fieldsJson : List (String × Node) → List (String × Json)
  | [] => []
  | (k, n) :: rest => (k, n.toJson) :: fieldsJson rest

/-- Turns the items around on the way. -/
def itemsJson (acc : List Json) : List (List (String × Node)) → List Json
  | [] => acc
  | fields :: rest => itemsJson (.object (fieldsJson fields) :: acc) rest
end

end Node

abbrev Fields := List (String × Node)

def setField (key : String) (n : Node) : Fields → Fields
  | [] => [(key, n)]
  | (k, m) :: rest => if k = key then (k, n) :: rest else (k, m) :: setField key n rest

/-- Changes the table at the end of a path, making the tables on the way that are not there yet.
A list of tables leads to its newest. Dotted keys do not enter tables that a header opened. -/
def changeAt (dotted : Bool) (f : TableKind → Fields → Option Fields) :
    List String → TableKind → Fields → Option Fields
  | [], kind, fields => f kind fields
  | key :: path, _, fields =>
    match Dict.lookup key fields with
    | none => do
      let kind := if dotted then TableKind.dotted else .implied
      let inner ← changeAt dotted f path kind []
      return setField key (.table kind inner) fields
    | some (.value _) => none
    | some (.table kind inner) =>
      if dotted && kind = .opened then none
      else do
        let inner ← changeAt dotted f path kind inner
        return setField key (.table kind inner) fields
    | some (.tables []) => none
    | some (.tables (newest :: earlier)) => do
      let newest ← changeAt dotted f path .opened newest
      return setField key (.tables (newest :: earlier)) fields

/-- Puts a value under a key that is free. A table that dotted keys made is entered by dotted
keys only. -/
def put (isDotted : Bool) (key : String) (v : Json) (kind : TableKind) (fields : Fields) :
    Option Fields :=
  if (kind = .dotted) ≠ isDotted then none
  else if (Dict.lookup key fields).isSome then none
  else some (fields ++ [(key, .value v)])

/-- Puts a value under a dotted key. -/
def putAt (path : List String) (key : String) (v : Json) (kind : TableKind) (fields : Fields) :
    Option Fields :=
  changeAt true (put (!path.isEmpty) key v) path kind fields

/-- Opens a table that is not there yet, or only implied. -/
def openTable (key : String) (_ : TableKind) (fields : Fields) : Option Fields :=
  match Dict.lookup key fields with
  | none => some (fields ++ [(key, .table .opened [])])
  | some (.table .implied inner) => some (setField key (.table .opened inner) fields)
  | some _ => none

/-- Opens one more table of a list. -/
def openItem (key : String) (_ : TableKind) (fields : Fields) : Option Fields :=
  match Dict.lookup key fields with
  | none => some (fields ++ [(key, .tables [[]])])
  | some (.tables items) => some (setField key (.tables ([] :: items)) fields)
  | some _ => none

end RouteEngine.Toml
