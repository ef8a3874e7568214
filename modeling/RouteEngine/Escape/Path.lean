import RouteEngine.Escape.Percent
import RouteEngine.Text.Split

/-!
The canonical form of a path: one leading slash, no slash twice in a row, no slash or escaped
slash at the end, and upper-case hex digits in every escape. Requests and declarations are both
brought into it before they are compared.
-/

namespace RouteEngine.Escape

open Text (hexValue? isHexDigit upperHexDigit)

/-- Drops every slash that follows a slash. -/
def squeezeAfter (slash : Bool) : List Char → List Char
  | [] => []
  | c :: r =>
    if c = '/' then
      if slash then squeezeAfter true r else '/' :: squeezeAfter true r
    else c :: squeezeAfter false r

def upperHex (c : Char) : Char :=
  match hexValue? c with
  | some n => upperHexDigit n
  | none => c

def upcaseEscapes : List Char → List Char
  | [] => []
  | '%' :: a :: b :: r =>
    if isHexDigit a && isHexDigit b then '%' :: upperHex a :: upperHex b :: upcaseEscapes r
    else '%' :: upcaseEscapes (a :: b :: r)
  | c :: r => c :: upcaseEscapes r

/-- Drops one slash, or one escaped slash, from the end of a path that is not the root. -/
def dropFinalSlash (path : List Char) : List Char :=
  if path = ['/'] then path
  else
    match Text.dropSuffix? ['/'] path with
    | some p => p
    | none => (Text.dropSuffix? ['%', '2', 'F'] path).getD path

def normalizeChars (path : List Char) : List Char :=
  dropFinalSlash (upcaseEscapes ('/' :: squeezeAfter true path))

def normalizePath (path : String) : String := String.ofList (normalizeChars path.toList)

/-- Moves the slashes in front of groups into them: while `carrying` a slash, opening
parentheses pass it, and it swallows a slash that it meets. -/
def lowerSlashes : (carrying : Bool) → List Char → List Char
  | false, [] => []
  | true, [] => ['/']
  | true, c :: r =>
    if c = '(' then '(' :: lowerSlashes true r
    else if c = '/' then '/' :: lowerSlashes false r
    else '/' :: c :: lowerSlashes false r
  | false, c :: r =>
    if c = '/' && r.head? = some '(' then lowerSlashes true r
    else c :: lowerSlashes false r

/-- What a scan over a run of groups has seen last. -/
inductive GroupScan
  | outside
  | opening
  | body
  | colon
  deriving DecidableEq, Repr

/-- Whether the text is a run of groups, the first with any content and each later one with
content that starts with a slash and a colon. A group's content ends at its first closing
parenthesis, so nested groups are not looked into. -/
def isGroupRun (first : Bool) : GroupScan → List Char → Bool
  | .outside, [] => true
  | .opening, [] => false
  | .colon, [] => false
  | .body, [] => false
  | .outside, c :: r => c = '(' && isGroupRun first .opening r
  | .opening, c :: r =>
    if c = '(' then isGroupRun first .opening r
    else if c = ')' then false
    else if first then isGroupRun true .body r
    else c = '/' && isGroupRun false .colon r
  | .colon, c :: r => c = ':' && isGroupRun false .body r
  | .body, c :: r =>
    if c = ')' then afterGroup r else isGroupRun first .body r
where
  /-- Past the closing parentheses of a group only a later group may follow. -/
  afterGroup : List Char → Bool
    | [] => true
    | c :: r => if c = ')' then afterGroup r else c = '(' && isGroupRun false .opening r

/-- The slash that the first group of an all-optional path begins with is put in front of it,
so that the path still leads to the root when every group is left out. -/
def raiseFirstSlash (path : List Char) : List Char :=
  if path.head? = some '(' && isGroupRun true .outside path then
    let opens := path.takeWhile (· = '(')
    match path.dropWhile (· = '(') with
    | '/' :: r => '/' :: opens ++ r
    | _ => path
  else path

/-- The canonical form of a declared path, in which a group that is left out takes its
separating slash along. -/
def normalizeDeclaredPath (path : String) : String :=
  let lowered := lowerSlashes false (normalizeChars path.toList)
  let raised := raiseFirstSlash lowered
  if raised.isEmpty then "/" else String.ofList raised

end RouteEngine.Escape
