import RouteEngine.Json.Basic
import RouteEngine.Names
import RouteEngine.Route.Scope
import RouteEngine.Settings.Decode

/-!
The shape of route files: routes and blocks of routes, each a record of named fields. A record is
an object without unknown or repeated fields, or a list of its first fields in order. An entry is
a block when it can be read as one, and a route otherwise.
-/

namespace RouteEngine

structure RedirectSpec where
  target : String
  status : Option Nat
  host : Option String

structure RouteSpec where
  path : String
  method : Option String
  target : Option String
  controller : Option String
  action : Option String
  name : Option String
  /-- What requests below the path are handed to. -/
  mount : Option String
  redirect : Option RedirectSpec
  constraints : List (String × Json)
  defaults : Params
  format : Option FormatOption
  shallow : Bool

structure BlockSpec where
  path : Option String
  namePrefix : Option String
  module : Option String
  shallowPath : Option String
  shallowPrefix : Option String
  constraints : List (String × Json)
  defaults : Params
  format : Option FormatOption
  only : Option (List String)
  except : Option (List String)

inductive FileEntry
  | route (r : RouteSpec)
  | block (b : BlockSpec) (entries : List FileEntry)

namespace Json

mutual
def depth : Json → Nat
  | .array items => itemsDepth items + 1
  | .object fields => fieldsDepth fields + 1
  | _ => 0

def itemsDepth : List Json → Nat
  | [] => 0
  | x :: xs => max (depth x) (itemsDepth xs)

def fieldsDepth : List (String × Json) → Nat
  | [] => 0
  | (_, v) :: fs => max (depth v) (fieldsDepth fs)
end

/-- The fields of a record with these names. -/
def record? (names : List String) : Json → Option (List (String × Json))
  | .object fields =>
    let keys := fields.map (·.1)
    if keys.all names.contains && (Names.distinct keys).length = keys.length then some fields
    else none
  | .array items => if items.length ≤ names.length then some (names.zip items) else none
  | _ => none

/-- The field, which has to be there. -/
def required? {α : Type} (f : Json → Option α) (key : String) (fields : List (String × Json)) :
    Option α :=
  (Dict.lookup key fields).bind f

/-- The field, `default` when it is not there. -/
def fieldOr? {α : Type} (f : Json → Option α) (default : α) (key : String)
    (fields : List (String × Json)) : Option α :=
  match Dict.lookup key fields with
  | some j => f j
  | none => some default

/-- The field, none when it is not there or `null`. -/
def maybe? {α : Type} (f : Json → Option α) (key : String) (fields : List (String × Json)) :
    Option (Option α) :=
  optional? f (Dict.lookup key fields)

def list? {α : Type} (f : Json → Option α) : Json → Option (List α)
  | .array items => items.mapM f
  | _ => none

def stringMap? : Json → Option Params
  | .object fields =>
    (fields.mapM fun (e : String × Json) => e.2.string?.map fun s => (e.1, s)).map Dict.ofList
  | _ => none

/-- The fields of an object by ascending names, the last of a name counting. -/
def valueMap? (j : Json) : Option (List (String × Json)) := fields? j.canonical

end Json

namespace FileEntry

open Json

/-- A name, or the only field of an object, which is then `null`. -/
def formatOf? : Json → Option FormatOption
  | .string s => FormatOption.ofName? s
  | .object [(s, .null)] => FormatOption.ofName? s
  | _ => none

def redirectOf? (j : Json) : Option RedirectSpec := do
  let fs ← record? ["to", "status", "host"] j
  let target ← required? string? "to" fs
  let status ← maybe? (natUpTo? Text.maxPort) "status" fs
  let host ← maybe? string? "host" fs
  return { target, status, host }

def routeFields : List String :=
  ["path", "method", "to", "controller", "action", "name", "mount", "redirect", "constraints",
    "defaults", "format", "shallow"]

def routeOf? (j : Json) : Option RouteSpec := do
  let fs ← record? routeFields j
  let path ← required? string? "path" fs
  let method ← maybe? string? "method" fs
  let target ← maybe? string? "to" fs
  let controller ← maybe? string? "controller" fs
  let action ← maybe? string? "action" fs
  let name ← maybe? string? "name" fs
  let mount ← maybe? string? "mount" fs
  let redirect ← maybe? redirectOf? "redirect" fs
  let constraints ← fieldOr? valueMap? [] "constraints" fs
  let defaults ← fieldOr? stringMap? .empty "defaults" fs
  let format ← maybe? formatOf? "format" fs
  let shallow ← fieldOr? bool? false "shallow" fs
  return { path, method, target, controller, action, name, mount, redirect, constraints, defaults,
           format, shallow }

def blockFields : List String :=
  ["path", "name_prefix", "module", "shallow_path", "shallow_prefix", "constraints", "defaults",
    "format", "only", "except", "routes"]

def blockOf? (fs : List (String × Json)) : Option BlockSpec := do
  let path ← maybe? string? "path" fs
  let namePrefix ← maybe? string? "name_prefix" fs
  let module ← maybe? string? "module" fs
  let shallowPath ← maybe? string? "shallow_path" fs
  let shallowPrefix ← maybe? string? "shallow_prefix" fs
  let constraints ← fieldOr? valueMap? [] "constraints" fs
  let defaults ← fieldOr? stringMap? .empty "defaults" fs
  let format ← maybe? formatOf? "format" fs
  let only ← maybe? (list? string?) "only" fs
  let except ← maybe? (list? string?) "except" fs
  return { path, namePrefix, module, shallowPath, shallowPrefix, constraints, defaults, format,
           only, except }

/-- An entry of a document that nests no deeper than the fuel. -/
def ofJson? : Nat → Json → Option FileEntry
  | 0, _ => none
  | n + 1, j =>
    let block : Option FileEntry := do
      let fs ← record? blockFields j
      let b ← blockOf? fs
      let entries ← required? (list? (ofJson? n)) "routes" fs
      return .block b entries
    block.orElse fun _ => (routeOf? j).map .route

end FileEntry

/-- The entries of a whole document. -/
def fileEntries? (j : Json) : Option (List FileEntry) := do
  let fs ← Json.record? ["routes"] j
  Json.fieldOr? (Json.list? (FileEntry.ofJson? (j.depth + 1))) [] "routes" fs

end RouteEngine
