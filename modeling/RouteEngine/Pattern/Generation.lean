import RouteEngine.Escape.Percent
import RouteEngine.Pattern.Compile

/-!
Filling a pattern with values. Required captures need a value; a group is written when each of
its own captures has a value and is wanted, and a group without captures of its own when it has
no groups either or one of them is written.
-/

namespace RouteEngine

/-- What writing a tree gives: the text, the names put into it and the required names that have
no value. -/
structure Emitted where
  text : List Char
  used : List String
  missing : List String
  deriving DecidableEq, Repr

def Emitted.nothing : Emitted := ⟨[], [], []⟩

def Emitted.append (a b : Emitted) : Emitted :=
  ⟨a.text ++ b.text, a.used ++ b.used, a.missing ++ b.missing⟩

def Capture.escape (c : Capture) (value : String) : List Char :=
  match c.kind with
  | .dynamic => Escape.escapeWith Escape.isSegmentSafe value.toList
  | .glob => Escape.escapeWith Escape.isPathSafe value.toList

namespace Segments

/-- A run whose captures all satisfy `given` and which has captures, or no groups, or a group
that may be written. -/
def isWritable (given : String → Bool) (s : Segments) (anyGroup : Bool) : Bool :=
  s.directCaptures.all (fun c => given c.name) && (s.hasDirect || !s.hasGroup || anyGroup)

/-- Some group of the run may be written. -/
def anyWritable (given : String → Bool) : Segments → Bool
  | done => false
  | literal _ next => next.anyWritable given
  | capture _ next => next.anyWritable given
  | group inner next => isWritable given inner (inner.anyWritable given) || next.anyWritable given

/-- The group with this content is written. -/
def includable (given : String → Bool) (inner : Segments) : Bool :=
  isWritable given inner (inner.anyWritable given)

def emit (values : Params) (wanted : String → Bool) : Segments → Emitted
  | done => .nothing
  | literal text next => Emitted.append ⟨text.toList, [], []⟩ (next.emit values wanted)
  | capture c next =>
    let here : Emitted :=
      match values.get? c.name with
      | some value => ⟨c.escape value, [c.name], []⟩
      | none => ⟨[], [], [c.name]⟩
    here.append (next.emit values wanted)
  | group inner next =>
    let here : Emitted :=
      if inner.includable fun n => wanted n && values.contains n then inner.emit values wanted
      else .nothing
    here.append (next.emit values wanted)

end Segments

/-- A path and the names in it. -/
structure Generated where
  path : String
  used : List String
  deriving DecidableEq, Repr

/-- A piece of a pattern without its groups. -/
inductive TemplatePart
  | text (text : String)
  | param (name : String) (glob : Bool)
  deriving DecidableEq, Repr

/-- The pieces of a tree without its groups, neighbouring texts joined. -/
def Segments.template : Segments → List TemplatePart
  | done => []
  | literal text next =>
    match next.template with
    | .text more :: rest => .text (text ++ more) :: rest
    | rest => .text text :: rest
  | capture c next => .param c.name (c.kind = .glob) :: next.template
  | group _ next => next.template

/-- The path that the parts give, or the names without a value. -/
def fillTemplate (values : Params) : List TemplatePart → Emitted
  | [] => .nothing
  | .text t :: rest => Emitted.append ⟨t.toList, [], []⟩ (fillTemplate values rest)
  | .param name glob :: rest =>
    let here : Emitted :=
      match values.get? name with
      | some value =>
        let safe := if glob then Escape.isPathSafe else Escape.isSegmentSafe
        ⟨Escape.escapeWith safe value.toList, [name], []⟩
      | none => ⟨[], [], [name]⟩
    here.append (fillTemplate values rest)

/-- The missing names are given in ascending order, each once. -/
def Emitted.result (e : Emitted) : Except (List String) Generated :=
  if e.missing.isEmpty then .ok ⟨String.ofList e.text, Names.distinct e.used⟩
  else .error (Names.ascending e.missing)

/-- Fills the pattern, writing the groups that `wanted` and the values allow. -/
def Pattern.generate (p : Pattern) (values : Params) (wanted : String → Bool) :
    Except (List String) Generated :=
  (p.segments.emit values wanted).result

end RouteEngine
