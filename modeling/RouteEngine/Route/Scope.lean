import RouteEngine.Constraint.Basic

/-!
Scopes of declarations. A frame says what a block of declarations changes, and a scope is what
all the blocks around a declaration come to: paths follow one another, names and modules are
joined, constraints and defaults are merged by key, and a format or filter replaces the one
around it.
-/

namespace RouteEngine

/-- What a route does about a format at the end of its path. -/
inductive FormatOption
  | optional
  | required
  | disabled
  deriving DecidableEq, Repr

def FormatOption.name : FormatOption → String
  | optional => "optional"
  | required => "required"
  | disabled => "disabled"

def FormatOption.ofName? : String → Option FormatOption
  | "optional" => some optional
  | "required" => some required
  | "disabled" => some disabled
  | _ => none

inductive ActionFilter
  | only (actions : List String)
  | except (actions : List String)
  deriving DecidableEq, Repr

def ActionFilter.permits (action : String) : ActionFilter → Bool
  | only actions => actions.contains action
  | except actions => !actions.contains action

structure ScopeFrame (σ : Type) where
  path : Option String := none
  namePrefix : Option String := none
  module : Option String := none
  shallowPath : Option String := none
  shallowPrefix : Option String := none
  constraints : List (String × Constraint σ) := []
  defaults : Params := .empty
  format : Option FormatOption := none
  filter : Option ActionFilter := none

structure Scope (σ : Type) where
  path : String := ""
  namePrefix : Option String := none
  module : Option String := none
  shallowPath : String := ""
  shallowPrefix : Option String := none
  /-- In the order in which their keys were first declared. -/
  constraints : List (String × Constraint σ) := []
  defaults : Params := .empty
  format : Option FormatOption := none
  filter : Option ActionFilter := none

/-- Puts an entry in place of the one with its key, or at the end. -/
def mergeEntry {α : Type} (key : String) (value : α) : List (String × α) → List (String × α)
  | [] => [(key, value)]
  | (k, v) :: rest =>
    if k = key then (key, value) :: rest else (k, v) :: mergeEntry key value rest

def mergeEntries {α : Type} (base entries : List (String × α)) : List (String × α) :=
  entries.foldl (fun acc e => mergeEntry e.1 e.2 acc) base

namespace Scope

variable {σ : Type}

def isSlash (c : Char) : Bool := c = '/'

/-- The outer path, a slash and the inner path without the slashes around it, if anything is
left of that. -/
def joinPath (outer : String) : (inner : Option String) → String
  | none => outer
  | some inner =>
    let trimmed := Text.trim isSlash inner.toList
    if trimmed.isEmpty then outer
    else String.ofList (Text.trimEnd isSlash outer.toList ++ '/' :: trimmed)

def nonEmpty (s : Option String) : Option String := s.filter (· ≠ "")

/-- The parts that are there and not empty, with a separator between them. -/
def joinWith (sep : String) (outer inner : Option String) : Option String :=
  match nonEmpty outer, nonEmpty inner with
  | some o, some i => some (o ++ sep ++ i)
  | some o, none => some o
  | none, some i => some i
  | none, none => none

def root : Scope σ := {}

def nest (s : Scope σ) (f : ScopeFrame σ) : Scope σ where
  path := joinPath s.path f.path
  namePrefix := joinWith "_" s.namePrefix f.namePrefix
  module := joinWith "/" s.module f.module
  shallowPath := joinPath s.shallowPath f.shallowPath
  shallowPrefix := joinWith "_" s.shallowPrefix f.shallowPrefix
  constraints := mergeEntries s.constraints f.constraints
  defaults := s.defaults.override f.defaults
  format := f.format.or s.format
  filter := f.filter.or s.filter

def nestAll (s : Scope σ) (frames : List (ScopeFrame σ)) : Scope σ := frames.foldl nest s

def permits (s : Scope σ) (action : String) : Bool :=
  match s.filter with
  | some f => f.permits action
  | none => true

def qualifyName (s : Scope σ) (name : String) : Option String :=
  joinWith "_" s.namePrefix (some name)

def qualifyShallowName (s : Scope σ) (name : String) : Option String :=
  joinWith "_" s.shallowPrefix (some name)

def qualifyController (s : Scope σ) (controller : String) : String :=
  (joinWith "/" s.module (some controller)).getD ""

end Scope

end RouteEngine
