import RouteEngine.Log.Basic
import RouteEngine.Request.Method
import RouteEngine.Text.Numeral
import RouteEngine.Text.Split

/-!
Filters for log lines. A filter is a list of directives with commas between them, each a level,
a source whose lines are shown, or a source with the level up to which they are shown. Of the
directives for a line the one with the longest source decides. A directive may name a task in
brackets: it opens its level to everything written during that task.
-/

namespace RouteEngine

structure LogDirective where
  source : Option String := none
  task : Option String := none
  /-- The rank up to which lines are shown, 0 for none. -/
  rank : Nat
  deriving DecidableEq, Repr

structure LogFilter where
  directives : List LogDirective
  deriving Repr

namespace LogFilter

def rank? (text : String) : Option Nat :=
  match Text.unsigned? 5 text with
  | some n => some n
  | none =>
    match lowerAscii text with
    | "off" => some 0
    | "error" => some 1
    | "warn" => some 2
    | "info" => some 3
    | "debug" => some 4
    | "trace" => some 5
    | _ => none

def maxRank : Nat := 5

/-- The rank behind an equals sign; all lines when nothing stands there. -/
def rankAfter? : List Char → Option Nat
  | [] => some maxRank
  | '=' :: [] => some maxRank
  | '=' :: level => rank? (String.ofList level)
  | _ => none

def isSourceStart (c : Char) : Bool := c.isAlphanum || c = '-' || c = ':' || c = '_'

def isMark (c : Char) : Bool := c = '=' || c = '['

/-- A directive; one without any mark is a level if it can be one. -/
def directive? (text : List Char) : Option LogDirective :=
  let source := text.takeWhile fun c => !isMark c
  let name := if source.isEmpty then none else some (String.ofList source)
  match source, text.dropWhile fun c => !isMark c with
  | [], '[' :: r => taskDirective name r
  | [], _ => none
  | c :: _, rest =>
    if !isSourceStart c then none
    else
      match rest with
      | [] =>
        match rank? (String.ofList source) with
        | some rank => some { rank }
        | none => some { source := name, rank := maxRank }
      | '[' :: r => taskDirective name r
      | rest => (rankAfter? rest).map fun rank => { source := name, rank }
where
  taskDirective (name : Option String) (r : List Char) : Option LogDirective :=
    (Text.splitFirst ']' r).bind fun (task, rest) =>
      (rankAfter? rest).map fun rank =>
        { source := name, task := some (String.ofList task), rank }

/-- Only errors are shown when there are no directives; a text that is no filter gives none. -/
def parse? (text : String) : Option LogFilter :=
  if text = "" then some ⟨[{ rank := 1 }]⟩
  else ((Text.pieces ',' text.toList).mapM directive?).map LogFilter.mk

/-- The filter of the text, or one up to the level of information. -/
def ofSetting (text : String) : LogFilter := (parse? text).getD ⟨[{ rank := 3 }]⟩

def appliesTo (source : String) (d : LogDirective) : Bool :=
  match d.source with
  | some s => Text.startsWith s.toList source.toList
  | none => true

def sourceLength (d : LogDirective) : Nat :=
  match d.source with
  | some s => s.utf8ByteSize + 1
  | none => 0

/-- The directive with the longest source, the last of several with the same. -/
def mostSpecific : List LogDirective → Option LogDirective
  | [] => none
  | d :: ds =>
    match mostSpecific ds with
    | some e => if sourceLength e < sourceLength d then some d else some e
    | none => some d

/-- The source under which tasks are announced. -/
def taskSource : String := "switchyard_core::logging"

def opensTask (line : LogLine) (d : LogDirective) : Bool :=
  d.task.isSome && d.task = line.task && appliesTo taskSource d && line.level.rank ≤ d.rank

def shows (f : LogFilter) (line : LogLine) : Bool :=
  let plain := f.directives.filter fun d => d.task.isNone && appliesTo line.source d
  f.directives.any (opensTask line) ||
    (mostSpecific plain).any fun d => line.level.rank ≤ d.rank

end LogFilter

end RouteEngine
