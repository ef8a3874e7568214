import RouteEngine.Pattern.Basic

/-!
Patterns in flat form. The parts of a pattern stand in one list and are numbered in the order in
which they are finished; a group names what it holds by number. A group is finished after its
content, so its numbers lead back to parts that are known already, and one pass over the list
gives the tree.
-/

namespace RouteEngine

namespace Arena

inductive Node
  | literal (text : String)
  | capture (c : Capture)
  /-- A group with the numbers of the parts in it. -/
  | group (parts : List Nat)
  deriving DecidableEq, Repr

def Node.parts : Node → List Nat
  | literal _ => []
  | capture _ => []
  | group parts => parts

/-- Puts parts in front of a run, when it is known for each number how to. -/
def join (known : List (Segments → Segments)) (parts : List Nat) (next : Segments) : Segments :=
  parts.foldr (fun i s => known.getD i id s) next

/-- Puts a part in front of a run, when it is known how to for those before it. -/
def Node.join (known : List (Segments → Segments)) : Node → Segments → Segments
  | literal text, next => .literal text next
  | capture c, next => .capture c next
  | group parts, next => .group (Arena.join known parts .done) next

/-- How to put each part in front of a run, by number. -/
def joins (nodes : List Node) : List (Segments → Segments) :=
  nodes.foldl (fun known n => known ++ [n.join known]) []

end Arena

structure Arena where
  nodes : List Arena.Node
  /-- The parts that no group holds. -/
  root : List Nat
  deriving DecidableEq, Repr

namespace Arena

def tree (a : Arena) : Segments := join (joins a.nodes) a.root .done

end Arena

end RouteEngine
