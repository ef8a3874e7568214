import RouteEngine.Regex.Basic

/-!
What reading a regular expression needs besides the text: the flags in force, the groups opened
so far, the reasons for which a text is refused, and the named classes.
-/

namespace RouteEngine.Regex

inductive SyntaxError
  | unclosedGroup
  | unopenedGroup
  | unclosedClass
  | badClassRange
  | badClassEscape
  | badEscape
  | badHex
  | backreference
  | lookAround
  | nothingToRepeat
  | badCount
  | badGroupName
  | duplicateGroupName (name : String)
  | badFlags
  | unknownProperty (name : String)
  | badWordBoundary
  | notText
  | tooDeep
  | tooLarge
  deriving DecidableEq, Repr

def SyntaxError.reason : SyntaxError → String
  | .unclosedGroup => "unclosed group"
  | .unopenedGroup => "unopened group"
  | .unclosedClass => "unclosed character class"
  | .badClassRange => "invalid character class range"
  | .badClassEscape => "invalid escape sequence found in character class"
  | .badEscape => "unrecognized escape sequence"
  | .badHex => "hexadecimal literal is not a Unicode scalar value"
  | .backreference => "backreferences are not supported"
  | .lookAround => "look-around is not supported"
  | .nothingToRepeat => "repetition operator missing expression"
  | .badCount => "invalid repetition count"
  | .badGroupName => "invalid capture group name"
  | .duplicateGroupName name => "duplicate capture group name " ++ name
  | .badFlags => "invalid flags"
  | .unknownProperty name => "Unicode property not found: " ++ name
  | .badWordBoundary => "invalid word boundary assertion"
  | .notText => "pattern can match invalid UTF-8"
  | .tooDeep =>
    "exceed the maximum number of nested parentheses/brackets (" ++ toString nestLimit ++ ")"
  | .tooLarge => "size limit of " ++ toString weightLimit ++ " bytes"

def SyntaxError.message : SyntaxError → String
  | .tooLarge => "Compiled regex exceeds " ++ SyntaxError.tooLarge.reason ++ "."
  | e => "regex parse error: " ++ e.reason

structure Flags where
  caseless : Bool := false
  multiLine : Bool := false
  dotAll : Bool := false
  swapGreed : Bool := false
  verbose : Bool := false
  crlf : Bool := false
  unicode : Bool := true
  deriving DecidableEq, Repr

structure Groups where
  next : Nat := 1
  names : List String := []
  deriving DecidableEq, Repr

/-- Blanks and comments, which a verbose expression may hold anywhere. -/
def skipComment : List Char → List Char
  | [] => []
  | c :: r => if c = '\n' then r else skipComment r

def skipBlanks : Nat → List Char → List Char
  | 0, cs => cs
  | _, [] => []
  | n + 1, c :: r =>
    if Text.isWhite c.toNat then skipBlanks n r
    else if c = '#' then skipBlanks n (skipComment r)
    else c :: r

def skip (f : Flags) (cs : List Char) : List Char :=
  if f.verbose then skipBlanks cs.length cs else cs

open CharClass in
/-- The classes that are named between `[:` and `:]`. -/
def posixClass? : String → Option CharClass
  | "alnum" => some (ofRanges [('0', '9'), ('A', 'Z'), ('a', 'z')])
  | "alpha" => some (ofRanges [('A', 'Z'), ('a', 'z')])
  | "ascii" => some (range '\x00' '\x7f')
  | "blank" => some (ofRanges [('\t', '\t'), (' ', ' ')])
  | "cntrl" => some (ofRanges [('\x00', '\x1f'), ('\x7f', '\x7f')])
  | "digit" => some (range '0' '9')
  | "graph" => some (range '!' '~')
  | "lower" => some (range 'a' 'z')
  | "print" => some (range ' ' '~')
  | "punct" => some (ofRanges [('!', '/'), (':', '@'), ('[', '`'), ('\x7b', '~')])
  | "space" => some (ofRanges [('\t', '\r'), (' ', ' ')])
  | "upper" => some (range 'A' 'Z')
  | "word" => some (ofRanges [('0', '9'), ('A', 'Z'), ('_', '_'), ('a', 'z')])
  | "xdigit" => some (ofRanges [('0', '9'), ('A', 'F'), ('a', 'f')])
  | _ => Option.none

open CharClass in
def digitClass (f : Flags) : CharClass :=
  if f.unicode then property .digit else range '0' '9'

open CharClass in
def spaceClass (f : Flags) : CharClass :=
  if f.unicode then property .space else ofRanges [('\t', '\r'), (' ', ' ')]

open CharClass in
def wordClass (f : Flags) : CharClass :=
  if f.unicode then property .word
  else ofRanges [('0', '9'), ('A', 'Z'), ('_', '_'), ('a', 'z')]

/-- Property names are compared without case, blanks, hyphens, underscores and a leading `is`. -/
def looseName (name : List Char) : List Char :=
  let kept := (name.filter fun c => !(c = ' ' || c = '-' || c = '_')).map Char.toLower
  match kept with
  | ['i', 's', 'c'] => kept
  | 'i' :: 's' :: r => r
  | _ => kept

def categoryNames : List (String × String) := [
  ("letter", "L"), ("casedletter", "LC"), ("uppercaseletter", "Lu"), ("lowercaseletter", "Ll"),
  ("titlecaseletter", "Lt"), ("modifierletter", "Lm"), ("otherletter", "Lo"), ("mark", "M"),
  ("nonspacingmark", "Mn"), ("spacingmark", "Mc"), ("enclosingmark", "Me"), ("number", "N"),
  ("decimalnumber", "Nd"), ("digit", "Nd"), ("letternumber", "Nl"), ("othernumber", "No"),
  ("punctuation", "P"), ("punct", "P"), ("connectorpunctuation", "Pc"),
  ("dashpunctuation", "Pd"), ("openpunctuation", "Ps"), ("closepunctuation", "Pe"),
  ("initialpunctuation", "Pi"), ("finalpunctuation", "Pf"), ("otherpunctuation", "Po"),
  ("symbol", "S"), ("mathsymbol", "Sm"), ("currencysymbol", "Sc"), ("modifiersymbol", "Sk"),
  ("othersymbol", "So"), ("separator", "Z"), ("spaceseparator", "Zs"), ("lineseparator", "Zl"),
  ("paragraphseparator", "Zp"), ("other", "C"), ("control", "Cc"), ("cntrl", "Cc"),
  ("format", "Cf"), ("privateuse", "Co"), ("unassigned", "Cn"), ("surrogate", "Cs")]

def shortCategories : List String := [
  "L", "LC", "Lu", "Ll", "Lt", "Lm", "Lo", "M", "Mn", "Mc", "Me", "N", "Nd", "Nl", "No", "P",
  "Pc", "Pd", "Ps", "Pe", "Pi", "Pf", "Po", "S", "Sm", "Sc", "Sk", "So", "Z", "Zs", "Zl", "Zp",
  "C", "Cc", "Cf", "Co", "Cn"]

def lowerName (s : String) : List Char := s.toList.map Char.toLower

def categoryNamed? (name : List Char) : Option CharClass :=
  let short := shortCategories.find? fun s => lowerName s = name
  let long := (categoryNames.find? fun e => e.1.toList = name).map (·.2)
  (short.orElse fun _ => long).map fun s =>
    if s = "LC" then
      CharClass.unionAll [.property (.category "Lu"), .property (.category "Ll"),
        .property (.category "Lt")]
    else .property (.category s)

def scriptNamed? (name : List Char) : Option CharClass :=
  (scriptRuns.find? fun e => lowerName e.1 = name).map fun e => .property (.script e.1)

/-- The properties of the general list that are known here; the others are refused. -/
def binaryNamed? (name : List Char) : Option CharClass :=
  match String.ofList name with
  | "any" => some (.compl .none)
  | "ascii" => some (.range '\x00' '\x7f')
  | "assigned" => some (.property .assigned)
  | "alphabetic" => some (.property .alphabetic)
  | "alpha" => some (.property .alphabetic)
  | "whitespace" => some (.property .space)
  | "space" => some (.property .space)
  | "lowercase" => some (.property .lowercase)
  | "lower" => some (.property .lowercase)
  | "uppercase" => some (.property .uppercase)
  | "upper" => some (.property .uppercase)
  | "asciihexdigit" => some (CharClass.ofRanges [('0', '9'), ('A', 'F'), ('a', 'f')])
  | _ => none

def propertyNamed? (name : List Char) : Option CharClass :=
  let loose := looseName name
  ((binaryNamed? loose).orElse fun _ => categoryNamed? loose).orElse fun _ => scriptNamed? loose

/-- A property given as a name and a value. -/
def propertyValued? (name value : List Char) : Option CharClass :=
  let loose := looseName value
  match String.ofList (looseName name) with
  | "generalcategory" => categoryNamed? loose
  | "gc" => categoryNamed? loose
  | "script" => scriptNamed? loose
  | "sc" => scriptNamed? loose
  | _ => none

end RouteEngine.Regex
