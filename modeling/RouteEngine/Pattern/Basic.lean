import RouteEngine.Names

/-!
Path patterns as trees. A pattern is a run of literal texts, captures and groups that may be left
out; the run is one inductive type, each constructor holding what follows it, so that a property
of patterns is one induction. `print` writes a tree back as pattern text.
-/

namespace RouteEngine

/-- A dynamic capture takes one path segment, a glob one or more. -/
inductive CaptureKind
  | dynamic
  | glob
  deriving DecidableEq, Repr

def CaptureKind.marker : CaptureKind → Char
  | .dynamic => ':'
  | .glob => '*'

/-- A named part of a path and the expression that it has to match. -/
structure Capture where
  kind : CaptureKind
  name : String
  regex : String
  /-- The expression was asked for and is not the one of the kind. -/
  explicit : Bool
  deriving DecidableEq, Repr

inductive Segments
  | done
  | literal (text : String) (next : Segments)
  | capture (c : Capture) (next : Segments)
  | group (inner next : Segments)
  deriving DecidableEq, Repr

namespace Segments

/-- Pattern text of a tree. -/
def print : Segments → List Char
  | done => []
  | literal text next => text.toList ++ next.print
  | capture c next => c.kind.marker :: c.name.toList ++ next.print
  | group inner next => '(' :: inner.print ++ ')' :: next.print

/-- How many literals, captures and groups the tree has. -/
def nodeCount : Segments → Nat
  | done => 0
  | literal _ next => next.nodeCount + 1
  | capture _ next => next.nodeCount + 1
  | group inner next => inner.nodeCount + next.nodeCount + 1

/-- A capture and whether some group holds it. -/
structure Occurrence where
  capture : Capture
  optional : Bool
  deriving DecidableEq, Repr

/-- Every capture in the order of the text. -/
def occurrences (optional : Bool) : Segments → List Occurrence
  | done => []
  | literal _ next => occurrences optional next
  | capture c next => ⟨c, optional⟩ :: occurrences optional next
  | group inner next => occurrences true inner ++ occurrences optional next

/-- The captures that no group holds. -/
def directCaptures : Segments → List Capture
  | done => []
  | literal _ next => next.directCaptures
  | capture c next => c :: next.directCaptures
  | group _ next => next.directCaptures

def names (s : Segments) : List String :=
  Names.distinct ((s.occurrences false).map fun o => o.capture.name)

/-- The names outside groups, as often as they stand there. -/
def requiredNames (s : Segments) : List String := s.directCaptures.map (·.name)

/-- The names that stand in groups only. -/
def optionalNames (s : Segments) : List String :=
  s.names.filter fun n => !s.requiredNames.contains n

/-- Some group holds a name that is required anyway. -/
def repeatsRequired (s : Segments) : Bool :=
  (s.occurrences false).any fun o => o.optional && s.requiredNames.contains o.capture.name

def hasGlob (s : Segments) : Bool :=
  (s.occurrences false).any fun o => o.capture.kind = .glob

def hasDirect (s : Segments) : Bool := !s.directCaptures.isEmpty

def hasGroup : Segments → Bool
  | done => false
  | literal _ next => next.hasGroup
  | capture _ next => next.hasGroup
  | group _ _ => true

/-- Every group, at any depth, has a capture of its own. -/
def groupsCapture : Segments → Bool
  | done => true
  | literal _ next => next.groupsCapture
  | capture _ next => next.groupsCapture
  | group inner next => inner.hasDirect && inner.groupsCapture && next.groupsCapture

def mapCaptures (f : Capture → Capture) : Segments → Segments
  | done => done
  | literal text next => literal text (next.mapCaptures f)
  | capture c next => capture (f c) (next.mapCaptures f)
  | group inner next => group (inner.mapCaptures f) (next.mapCaptures f)

end Segments

end RouteEngine
