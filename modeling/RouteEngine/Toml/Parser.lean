import RouteEngine.Toml.Scalar
import RouteEngine.Toml.Tree

/-!
Reading TOML documents. The text is a run of headers and settings, which are read one by one and
put into a tree; the tree is given back as a JSON object with sorted keys.
-/

namespace RouteEngine.Toml

def splitPath : List String → Option (List String × String)
  | [] => none
  | [key] => some ([], key)
  | key :: rest => (splitPath rest).map fun p => (key :: p.1, p.2)

mutual
def value (depth : Nat) : Nat → List Char → Option (Json × List Char)
  | 0, _ => none
  | n + 1, cs =>
    match cs, depth with
    | '[' :: r, depth + 1 => (items depth n r).map fun p => (.array p.1, p.2)
    | '\x7b' :: r, depth + 1 =>
      match skipBlanks r with
      | '\x7d' :: r => some (.object [], r)
      | r => (settings depth n r []).map fun p => (.object (Node.fieldsJson p.1), p.2)
    | cs, _ => scalar? cs

/-- The items of a list up to its closing bracket. -/
def items (depth : Nat) : Nat → List Char → Option (List Json × List Char)
  | 0, _ => none
  | n + 1, cs =>
    match skipGap false cs with
    | ']' :: r => some ([], r)
    | r =>
      (value depth n r).bind fun (x, r) =>
        match skipGap false r with
        | ',' :: r => (items depth n r).map fun p => (x :: p.1, p.2)
        | ']' :: r => some ([x], r)
        | _ => none

/-- The settings of an inline table up to its closing brace. -/
def settings (depth : Nat) : Nat → List Char → Fields → Option (Fields × List Char)
  | 0, _, _ => none
  | n + 1, cs, fields =>
    (key? cs).bind fun (path, r) =>
      match splitPath path, r with
      | some (path, key), '=' :: r =>
        (value depth n (skipBlanks r)).bind fun (v, r) =>
          (putAt path key v .opened fields).bind fun fields =>
            match skipBlanks r with
            | ',' :: r => settings depth n r fields
            | '\x7d' :: r => some (fields, r)
            | _ => none
      | _, _ => none
end

/-- A document up to some line, and the path of the table that is open there. -/
structure Draft where
  root : Fields := []
  current : List String := []

namespace Draft

def openAt (d : Draft) (path : List String)
    (f : String → TableKind → Fields → Option Fields) : Option Draft := do
  let (outer, key) ← splitPath path
  let root ← changeAt false (f key) outer .opened d.root
  return ⟨root, path⟩

def put (d : Draft) (path : List String) (v : Json) : Option Draft := do
  let (outer, key) ← splitPath path
  let root ← changeAt false (putAt outer key v) d.current .opened d.root
  return { d with root }

/-- Reads a header or a setting. -/
def read (d : Draft) (cs : List Char) : Option (Draft × List Char) :=
  match cs with
  | '[' :: '[' :: r =>
    match key? r with
    | some (path, ']' :: ']' :: r) => do
      let d ← d.openAt path openItem
      let r ← lineEnd? r
      return (d, r)
    | _ => none
  | '[' :: r =>
    match key? r with
    | some (path, ']' :: r) => do
      let d ← d.openAt path openTable
      let r ← lineEnd? r
      return (d, r)
    | _ => none
  | cs =>
    match key? cs with
    | some (path, '=' :: r) => do
      let r := skipBlanks r
      let (v, r) ← value maxDepth (r.length + 1) r
      let d ← d.put path v
      let r ← lineEnd? r
      return (d, r)
    | _ => none

/-- Reads line by line, passing over empty lines and comments. -/
def readAll : Nat → Draft → List Char → Option Draft
  | 0, _, _ => none
  | n + 1, d, cs =>
    match skipBlanks cs with
    | [] => some d
    | '\n' :: r => readAll n d r
    | '\r' :: '\n' :: r => readAll n d r
    | '#' :: r => (lineEnd? ('#' :: r)).bind (readAll n d)
    | cs => (d.read cs).bind fun (d, r) => readAll n d r

end Draft

def byteOrderMark : Char := '\ufeff'

def dropMark : List Char → List Char
  | c :: r => if c = byteOrderMark then r else c :: r
  | [] => []

def parse? (text : String) : Option Json :=
  let cs := dropMark text.toList
  (Draft.readAll (cs.length + 1) {} cs).map fun d =>
    (Json.object (Node.fieldsJson d.root)).canonical

end RouteEngine.Toml
