import RouteEngine.Pattern.Arena
import RouteEngine.Pattern.Error
import RouteEngine.Text.Identifier

/-!
Reading pattern text. The text is cut into tokens, and these are taken up from left to right: a
part is finished with its last token, so a group with its closing parenthesis, and joins the run
that it stands in. The first offence ends the reading.
-/

namespace RouteEngine.Pattern

open Text (isNameChar)

inductive Token
  | openGroup
  | closeGroup
  | text (chars : List Char)
  | capture (kind : CaptureKind) (name : List Char)
  /-- A marker that no name follows. -/
  | nameless (kind : CaptureKind)
  deriving DecidableEq, Repr

def Token.print : Token → List Char
  | openGroup => ['(']
  | closeGroup => [')']
  | text chars => chars
  | capture kind name => kind.marker :: name
  | nameless kind => [kind.marker]

/-- Puts a literal character in front of the tokens. -/
def pushChar (c : Char) : List Token → List Token
  | .text cs :: ts => .text (c :: cs) :: ts
  | ts => .text [c] :: ts

/-- Puts a marker in front of the tokens; it takes its name from the text that follows. -/
def pushMarker (kind : CaptureKind) : List Token → List Token
  | .text cs :: ts =>
    match cs.takeWhile isNameChar, cs.dropWhile isNameChar with
    | [], _ => .nameless kind :: .text cs :: ts
    | name, [] => .capture kind name :: ts
    | name, rest => .capture kind name :: .text rest :: ts
  | ts => .nameless kind :: ts

def tokens : List Char → List Token
  | [] => []
  | c :: r =>
    if c = '(' then .openGroup :: tokens r
    else if c = ')' then .closeGroup :: tokens r
    else if c = ':' then pushMarker .dynamic (tokens r)
    else if c = '*' then pushMarker .glob (tokens r)
    else pushChar c (tokens r)

/-- What is wrong with a text, as far as its parentheses and markers go. -/
inductive Offence
  | unbalanced
  | nameless (kind : CaptureKind)
  deriving DecidableEq, Repr

def dynamicRegex : String := "[^/.?]+"

def globRegex : String := ".+"

/-- The glob stops as early as it can, so that a format may follow it. -/
def lazyGlobRegex : String := ".+?"

def defaultCapture (kind : CaptureKind) (name : List Char) : Capture :=
  let regex :=
    match kind with
    | .dynamic => dynamicRegex
    | .glob => globRegex
  ⟨kind, String.ofList name, regex, false⟩

/-- A pattern of which some tokens have been read. -/
structure Reading where
  /-- The parts that are finished. -/
  nodes : List Arena.Node
  /-- The parts of the innermost run that is open. -/
  run : List Nat
  /-- The runs around it, from inside out. -/
  around : List (List Nat)
  deriving DecidableEq, Repr

namespace Reading

def start : Reading := ⟨[], [], []⟩

/-- Finishes a part, which takes the next number and joins the innermost run. -/
def add (r : Reading) (n : Arena.Node) : Reading :=
  ⟨r.nodes ++ [n], r.run ++ [r.nodes.length], r.around⟩

def step (r : Reading) : Token → Except Offence Reading
  | .text cs => .ok (r.add (.literal (String.ofList cs)))
  | .capture kind name => .ok (r.add (.capture (defaultCapture kind name)))
  | .nameless kind => .error (.nameless kind)
  | .openGroup => .ok ⟨r.nodes, [], r.run :: r.around⟩
  | .closeGroup =>
    match r.around with
    | [] => .error .unbalanced
    | run :: around => .ok (Reading.add ⟨r.nodes, run, around⟩ (.group r.run))

/-- A group that is left open counts at the end. -/
def finish (r : Reading) : Except Offence Arena :=
  match r.around with
  | [] => .ok ⟨r.nodes, r.run⟩
  | _ :: _ => .error .unbalanced

end Reading

def readTokens (ts : List Token) : Except Offence Arena := do
  let r ← ts.foldlM Reading.step .start
  r.finish

def Offence.error (source : String) : Offence → PatternError
  | .unbalanced => .unbalancedGroup source
  | .nameless kind => .missingName source kind.marker

def parseArena (source : String) : Except PatternError Arena :=
  (readTokens (tokens source.toList)).mapError (Offence.error source)

def parseTree (source : String) : Except PatternError Segments :=
  (parseArena source).map Arena.tree

/-- Names that would be mistaken for an option when a URL is generated. -/
def reservedNames : List String :=
  ["only_path", "anchor", "params", "script_name", "trailing_slash", "host", "protocol", "port"]

def isReserved (name : String) : Bool := reservedNames.contains name

/-- The captures outside groups that follow a glob, wherever the glob stands. -/
def afterGlob (seen : Bool) : List Segments.Occurrence → List String
  | [] => []
  | o :: os =>
    let rest := afterGlob (seen || o.capture.kind = .glob) os
    if seen && !o.optional then o.capture.name :: rest else rest

def globCount (os : List Segments.Occurrence) : Nat :=
  (os.filter fun o => o.capture.kind = .glob).length

/-- A reserved name is reported before a second glob, and that before a capture behind it. -/
def validate (source : String) (s : Segments) : Except PatternError Unit :=
  let os := s.occurrences false
  match (os.map fun o => o.capture.name).find? isReserved with
  | some n => .error (.reservedName source n)
  | none =>
    if 1 < globCount os then .error (.multipleGlobs source)
    else
      match afterGlob false os with
      | n :: _ => .error (.captureAfterGlob source n)
      | [] => .ok ()

/-- The tree of a well-formed pattern. -/
def readTree (source : String) : Except PatternError Segments := do
  let s ← parseTree source
  validate source s
  return s

def parseNames (source : String) : Except PatternError (List String) :=
  (readTree source).map Segments.names

theorem print_pushChar (c : Char) (ts : List Token) :
    (pushChar c ts).flatMap Token.print = c :: ts.flatMap Token.print := by
  unfold pushChar
  split <;> simp [Token.print]

theorem print_pushMarker (kind : CaptureKind) (ts : List Token) :
    (pushMarker kind ts).flatMap Token.print = kind.marker :: ts.flatMap Token.print := by
  unfold pushMarker
  split
  · next cs ts =>
    have hcs : cs.takeWhile isNameChar ++ cs.dropWhile isNameChar = cs :=
      List.takeWhile_append_dropWhile
    split
    · simp [Token.print]
    · have hd : cs.dropWhile isNameChar = [] := by assumption
      rw [hd, List.append_nil] at hcs
      simp [Token.print, hcs]
    · simp only [List.flatMap_cons, Token.print, List.cons_append]
      rw [← List.append_assoc, hcs]
  · simp [Token.print]

/-- Cutting into tokens loses nothing. -/
theorem print_tokens (cs : List Char) : (tokens cs).flatMap Token.print = cs := by
  induction cs with
  | nil => rfl
  | cons c r ih =>
    simp only [tokens]
    split
    · next h => simp [Token.print, ih, h]
    · split
      · next h => simp [Token.print, ih, h]
      · split
        · next h => simp [print_pushMarker, CaptureKind.marker, ih, h]
        · split
          · next h => simp [print_pushMarker, CaptureKind.marker, ih, h]
          · simp [print_pushChar, ih]

end RouteEngine.Pattern
