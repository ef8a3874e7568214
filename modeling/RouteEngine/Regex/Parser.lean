import RouteEngine.Regex.Syntax
import RouteEngine.Text.Hex
import RouteEngine.Text.Numeral
import RouteEngine.Text.Split

/-!
Reading a regular expression. A reader takes the characters that are left and gives back what it
read with the rest. The flags that a group sets hold to the end of the group around them, across
its alternatives; groups are numbered by their opening parentheses. With an expression its readers
give back how deep it nests, which the tree alone would not tell: a group without a number and a
repetition that is made once leave nothing in it.
-/

namespace RouteEngine.Regex

open Text (isHexDigit hexNumber? splitFirst)

abbrev Result := Except SyntaxError

/-- One escaped or plain item, before it is known whether a class may hold it. -/
inductive Item
  | literal (c : Char)
  | cls (c : CharClass)
  | look (l : Look)
  | any

def withCase (f : Flags) (c : CharClass) : CharClass := if f.caseless then .folded c else c

/-- Characters without a meaning that may still be escaped: all of ASCII but letters, digits and
angle brackets. -/
def isEscapable (c : Char) : Bool :=
  c.toNat < 128 && !(c.isAlphanum || c = '<' || c = '>')

def charOfNumber (n : Nat) : Result Char :=
  if n.isValidChar then .ok (Char.ofNat n) else .error .badHex

/-- Exactly `n` hex digits; a verbose expression may have blanks between them. -/
def hexDigits (f : Flags) : Nat → List Char → List Char → Result (List Char × List Char)
  | 0, acc, cs => .ok (acc.reverse, cs)
  | n + 1, acc, c :: r => if isHexDigit c then hexDigits f n (c :: acc) (skip f r) else .error .badHex
  | _ + 1, _, [] => .error .badEscape

def hexBraced (f : Flags) : Nat → List Char → List Char → Result (List Char × List Char)
  | 0, _, _ => .error .badEscape
  | _, _, [] => .error .badEscape
  | n + 1, acc, c :: r =>
    if c = '\x7d' then .ok (acc.reverse, skip f r)
    else if isHexDigit c then hexBraced f n (c :: acc) (skip f r)
    else .error .badHex

def readHex (f : Flags) (digits : Nat) (cs : List Char) : Result (Char × List Char) := do
  let (ds, r) ←
    match skip f cs with
    | '\x7b' :: r => hexBraced f (r.length + 1) [] (skip f r)
    | r => hexDigits f digits [] r
  match ds, hexNumber? ds with
  | _ :: _, some n => return (← charOfNumber n, r)
  | _, _ => .error .badHex

def upToBrace (f : Flags) : Nat → List Char → List Char → Result (List Char × List Char)
  | 0, _, _ => .error .badEscape
  | _, _, [] => .error .badEscape
  | n + 1, acc, c :: r =>
    if c = '\x7d' then .ok (acc.reverse, r) else upToBrace f n (c :: acc) (skip f r)

/-- A property and whether its name turns it around. -/
def propertyIn (name : List Char) : Result (CharClass × Bool) :=
  let found (r : Option CharClass) (negated : Bool) : Result (CharClass × Bool) :=
    match r with
    | some c => .ok (c, negated)
    | none => .error (.unknownProperty (String.ofList name))
  match Text.splitAtWord ['!', '='] name with
  | some (k, v) => found (propertyValued? k v) true
  | none =>
    match splitFirst ':' name with
    | some (k, v) => found (propertyValued? k v) false
    | none =>
      match splitFirst '=' name with
      | some (k, v) => found (propertyValued? k v) false
      | none => found (propertyNamed? name) false

def readProperty (f : Flags) (negated : Bool) (cs : List Char) : Result (Item × List Char) := do
  let (name, r) ←
    match skip f cs with
    | [] => .error .badEscape
    | '\x7b' :: r => upToBrace f (r.length + 1) [] (skip f r)
    | c :: r => if c = '\\' then .error .badEscape else .ok ([c], skip f r)
  if !f.unicode then .error .notText
  let (c, turned) ← propertyIn name
  let c := withCase f c
  return (.cls (if negated != turned then .compl c else c), r)

/-- A class by its letter; outside Unicode its complement would have bytes that are no text. -/
def perlItem (f : Flags) (negated : Bool) (c : CharClass) (r : List Char) : Result (Item × List Char) :=
  if negated && !f.unicode then .error .notText
  else .ok (.cls (if negated then .compl c else c), r)

def isBoundaryChar (c : Char) : Bool := c.isAlpha || c = '-'

def boundaryName (f : Flags) : Nat → List Char → List Char → List Char × List Char
  | 0, acc, cs => (acc.reverse, cs)
  | _, acc, [] => (acc.reverse, [])
  | n + 1, acc, c :: r =>
    if isBoundaryChar c then boundaryName f n (c :: acc) (skip f r) else (acc.reverse, c :: r)

/-- A word boundary, named in braces or plain; other braces after it count its repetitions. -/
def readBoundary (f : Flags) (cs : List Char) : Result (Item × List Char) :=
  let plain : Result (Item × List Char) := .ok (.look (.wordBoundary !f.unicode), cs)
  match cs with
  | '\x7b' :: r =>
    match skip f r with
    | [] => .error .badWordBoundary
    | c :: r =>
      if isBoundaryChar c then
        match boundaryName f (r.length + 1) [] (c :: r) with
        | (name, '\x7d' :: r) =>
          match String.ofList name with
          | "start" => .ok (.look (.wordStart !f.unicode), r)
          | "end" => .ok (.look (.wordEnd !f.unicode), r)
          | "start-half" => .ok (.look (.wordStartHalf !f.unicode), r)
          | "end-half" => .ok (.look (.wordEndHalf !f.unicode), r)
          | _ => .error .badWordBoundary
        | _ => .error .badWordBoundary
      else plain
  | _ => plain

/-- What follows a backslash. -/
def readEscape (f : Flags) : List Char → Result (Item × List Char)
  | [] => .error .badEscape
  | c :: r =>
    match c with
    | 'x' => do let (ch, r) ← readHex f 2 r; return (.literal ch, r)
    | 'u' => do let (ch, r) ← readHex f 4 r; return (.literal ch, r)
    | 'U' => do let (ch, r) ← readHex f 8 r; return (.literal ch, r)
    | 'p' => readProperty f false r
    | 'P' => readProperty f true r
    | 'd' => perlItem f false (digitClass f) r
    | 'D' => perlItem f true (digitClass f) r
    | 's' => perlItem f false (spaceClass f) r
    | 'S' => perlItem f true (spaceClass f) r
    | 'w' => perlItem f false (wordClass f) r
    | 'W' => perlItem f true (wordClass f) r
    | 'a' => .ok (.literal '\x07', r)
    | 'f' => .ok (.literal '\x0c', r)
    | 't' => .ok (.literal '\t', r)
    | 'n' => .ok (.literal '\n', r)
    | 'r' => .ok (.literal '\r', r)
    | 'v' => .ok (.literal '\x0b', r)
    | 'A' => .ok (.look .textStart, r)
    | 'z' => .ok (.look .textEnd, r)
    | 'b' => readBoundary f r
    | 'B' => .ok (.look (.notWordBoundary !f.unicode), r)
    | '<' => .ok (.look (.wordStart !f.unicode), r)
    | '>' => .ok (.look (.wordEnd !f.unicode), r)
    | c =>
      if c.isDigit then .error .backreference
      else if isEscapable c then .ok (.literal c, r)
      else .error .badEscape

def readClassItem (f : Flags) : List Char → Result (Item × List Char)
  | [] => .error .unclosedClass
  | '\\' :: r => readEscape f r
  | c :: r => .ok (.literal c, r)

def Item.asClass : Item → Result CharClass
  | .literal c => .ok (.single c)
  | .cls c => .ok c
  | _ => .error .badClassEscape

def Item.asEnd : Item → Result Char
  | .literal c => .ok c
  | _ => .error .badClassRange

/-- One character, class or range inside brackets. A hyphen before a bracket or another hyphen
makes no range. -/
def readClassRange (f : Flags) (cs : List Char) : Result (CharClass × List Char) := do
  let (first, r) ← readClassItem f cs
  match skip f r with
  | [] => .error .unclosedClass
  | '-' :: r =>
    let next := (skip f r).head?
    if next = some ']' || next = some '-' then return (← first.asClass, '-' :: r)
    else
      match skip f r with
      | [] => .error .unclosedClass
      | r =>
        let (last, r) ← readClassItem f r
        let a ← first.asEnd
        let b ← last.asEnd
        if a ≤ b then return (.range a b, r) else .error .badClassRange
  | r => return (← first.asClass, r)

/-- The name of a class between `[:` and `:]`, if that is what stands here. -/
def posixName (cs : List Char) : Option (CharClass × List Char) :=
  match cs with
  | '[' :: ':' :: r =>
    let (negated, r) :=
      match r with
      | '^' :: r => (true, r)
      | r => (false, r)
    match splitFirst ':' r with
    | some (name, ']' :: r) =>
      (posixClass? (String.ofList name)).map fun c => (if negated then .compl c else c, r)
    | _ => none
  | _ => none

/-- The operations on classes, all of one strength and grouped to the left. -/
inductive ClassOp
  | inter
  | diff
  | symmDiff

def ClassOp.apply (f : Flags) (op : ClassOp) (a b : CharClass) : CharClass :=
  let a := withCase f a
  let b := withCase f b
  match op with
  | .inter => .inter a b
  | .diff => .diff a b
  | .symmDiff => .symmDiff a b

/-- What has been read between two brackets: the operation that is waiting for its right side,
and the union that is being gathered. -/
structure Bracket where
  pending : Option (CharClass × ClassOp)
  gathered : CharClass

def Bracket.closed (f : Flags) (b : Bracket) : CharClass :=
  match b.pending with
  | none => b.gathered
  | some (lhs, op) => op.apply f lhs b.gathered

def Bracket.add (b : Bracket) (c : CharClass) : Bracket := { b with gathered := .union b.gathered c }

def leadingHyphens (f : Flags) : Nat → Bracket → List Char → Bracket × List Char
  | n + 1, b, '-' :: r => leadingHyphens f n (b.add (.single '-')) (skip f r)
  | _, b, cs => (b, cs)

/-- The start of a bracketed class after its bracket: a caret, then hyphens, or a closing
bracket that stands for itself. -/
def openBracket (f : Flags) (cs : List Char) : Bool × Bracket × List Char :=
  let (negated, r) :=
    match skip f cs with
    | '^' :: r => (true, skip f r)
    | r => (false, r)
  let empty : Bracket := ⟨none, .none⟩
  match r with
  | ']' :: r => (negated, empty.add (.single ']'), skip f r)
  | r => (negated, leadingHyphens f r.length empty r)

/-- The rest of a bracketed class, up to and including its closing bracket. -/
def readBracket (f : Flags) (negated : Bool) : Nat → Bracket → List Char → Result (CharClass × List Char)
  | 0, _, _ => .error .unclosedClass
  | n + 1, b, cs =>
    match skip f cs with
    | [] => .error .unclosedClass
    | ']' :: r =>
      if negated && !f.unicode then .error .notText
      else
        let c := withCase f (b.closed f)
        .ok (if negated then .compl c else c, r)
    | '[' :: r =>
      match posixName ('[' :: r) with
      | some (c, r) => readBracket f negated n (b.add c) r
      | none => do
        let (inner, start, r) := openBracket f r
        let (c, r) ← readBracket f inner n start r
        readBracket f negated n (b.add c) r
    | '&' :: '&' :: r => readBracket f negated n ⟨some (b.closed f, .inter), .none⟩ r
    | '-' :: '-' :: r => readBracket f negated n ⟨some (b.closed f, .diff), .none⟩ r
    | '~' :: '~' :: r => readBracket f negated n ⟨some (b.closed f, .symmDiff), .none⟩ r
    | r => do
      let (c, r) ← readClassRange f r
      readBracket f negated n (b.add c) r

def readClass (f : Flags) (cs : List Char) : Result (CharClass × List Char) :=
  let (negated, b, r) := openBracket f cs
  readBracket f negated (cs.length + 1) b r

def dotClass (f : Flags) : Result CharClass :=
  if !f.unicode then .error .notText
  else if f.dotAll then .ok (.compl .none)
  else if f.crlf then .ok (.compl (CharClass.ofRanges [('\n', '\n'), ('\r', '\r')]))
  else .ok (.compl (.single '\n'))

def caretLook (f : Flags) : Look :=
  if f.multiLine then if f.crlf then .crlfStart else .lineStart else .textStart

def dollarLook (f : Flags) : Look :=
  if f.multiLine then if f.crlf then .crlfEnd else .lineEnd else .textEnd

def Item.toRegex (f : Flags) : Item → Result Regex
  | .literal c => .ok (.chars (withCase f (.single c)))
  | .cls c => .ok (.chars c)
  | .look l => .ok (.look l)
  | .any => (dotClass f).map .chars

def setFlag (f : Flags) (on : Bool) : Char → Option Flags
  | 'i' => some { f with caseless := on }
  | 'm' => some { f with multiLine := on }
  | 's' => some { f with dotAll := on }
  | 'U' => some { f with swapGreed := on }
  | 'x' => some { f with verbose := on }
  | 'R' => some { f with crlf := on }
  | 'u' => some { f with unicode := on }
  | _ => none

/-- Flags up to a colon or parenthesis, which is given back too. Each letter and the minus
stand at most once, and the minus not at the end. -/
def readFlags (f : Flags) (seen : List Char) (on : Bool) : List Char → Result ((Flags × Char × Bool) × List Char)
  | [] => .error .badFlags
  | c :: r =>
    if c = ':' || c = ')' then
      if seen.head? = some '-' then .error .badFlags else .ok ((f, c, seen.isEmpty), r)
    else if seen.contains c then .error .badFlags
    else if c = '-' then readFlags f (c :: seen) false r
    else
      match setFlag f on c with
      | some f => readFlags f (c :: seen) on r
      | none => .error .badFlags

def isGroupNameChar (first : Bool) (c : Char) : Bool :=
  let letter := Property.holds c .alphabetic
  if first then c = '_' || letter
  else c = '_' || c = '.' || c = '[' || c = ']' || letter ||
    (categoryOf c.toNat).toList.head? = some 'N'

def readGroupName (cs : List Char) : Result (String × List Char) :=
  match splitFirst '>' cs with
  | none => .error .badGroupName
  | some (name, r) =>
    match name with
    | [] => .error .badGroupName
    | c :: cs =>
      if isGroupNameChar true c && cs.all (isGroupNameChar false) then .ok (String.ofList name, r)
      else .error .badGroupName

def Groups.open (g : Groups) : Nat × Groups := (g.next, { g with next := g.next + 1 })

def Groups.named (g : Groups) (name : String) : Result Groups :=
  if g.names.contains name then .error (.duplicateGroupName name)
  else .ok { g with names := name :: g.names }

/-- A decimal number with blanks around it; at most 32 bits wide. -/
def readCount (f : Flags) (cs : List Char) : Option (Option Nat × List Char) :=
  let r := cs.dropWhile fun c => Text.isWhite c.toNat
  let rec digits : Nat → List Char → List Char → List Char × List Char
    | n + 1, acc, c :: r =>
      if c.isDigit then digits n (c :: acc) (skip f r) else (acc.reverse, c :: r)
    | _, acc, r => (acc.reverse, r)
  let (ds, r) := digits r.length [] r
  let r := r.dropWhile fun c => Text.isWhite c.toNat
  if ds.isEmpty then some (none, r)
  else
    let n := Text.digitsValue ds
    if n < Nat.pow 2 32 then some (some n, r) else none

/-- The least and the greatest count, after the opening brace. -/
def readCounts (f : Flags) (cs : List Char) : Result ((Nat × Option Nat) × List Char) :=
  match readCount f (skip f cs) with
  | none => .error .badCount
  | some (none, _) => .error .badCount
  | some (some least, r) =>
    match r with
    | '\x7d' :: r => .ok ((least, some least), skip f r)
    | ',' :: r =>
      match skip f r with
      | '\x7d' :: r => .ok ((least, none), skip f r)
      | r =>
        match readCount f r with
        | some (some most, '\x7d' :: r) =>
          if least ≤ most then .ok ((least, some most), skip f r) else .error .badCount
        | _ => .error .badCount
    | _ => .error .badCount

/-- The mark of a lazy repetition. -/
def lazyMark : List Char → Bool × List Char
  | '?' :: r => (true, r)
  | r => (false, r)

/-- Applies the repetitions that follow an expression. Copies that would be too heavy are refused
before they are made. -/
def readRepeats (f : Flags) : Nat → Part → List Char → Result (Part × List Char)
  | 0, a, cs => .ok (a, cs)
  | n + 1, a, cs =>
    let simple (least : Nat) (most : Option Nat) (r : List Char) : Result (Part × List Char) :=
      let (lazy, r) := lazyMark r
      if weightLimit < most.getD least * a.regex.weight then .error .tooLarge
      else readRepeats f n (a.repeated (lazy == f.swapGreed) least most) r
    match skip f cs with
    | '*' :: r => simple 0 none r
    | '+' :: r => simple 1 none r
    | '?' :: r => simple 0 (some 1) r
    | '\x7b' :: r => do
      let ((least, most), r) ← readCounts f r
      simple least most r
    | r => .ok (a, r)

def startsLookAround : List Char → Bool
  | '?' :: '=' :: _ => true
  | '?' :: '!' :: _ => true
  | '?' :: '<' :: '=' :: _ => true
  | '?' :: '<' :: '!' :: _ => true
  | _ => false

/-- What an opening parenthesis begins. -/
inductive Opening
  | group (index : Nat)
  | plain (flags : Flags)
  | flags (flags : Flags)

def readOpening (f : Flags) (g : Groups) (cs : List Char) : Result ((Opening × Groups) × List Char) :=
  let r := skip f cs
  if startsLookAround r then .error .lookAround
  else
    let named (r : List Char) : Result ((Opening × Groups) × List Char) := do
      let (name, r) ← readGroupName r
      let (i, g) := g.open
      let g ← g.named name
      return ((.group i, g), r)
    match r with
    | '?' :: 'P' :: '<' :: r => named r
    | '?' :: '<' :: r => named r
    | '?' :: r => do
      let ((f', c, bare), r) ← readFlags f [] true r
      if c = ':' then return ((.plain f', g), r)
      else if bare then .error .nothingToRepeat
      else return ((.flags f', g), r)
    | r =>
      let (i, g) := g.open
      .ok ((.group i, g), r)

/-- What is known after a part of an expression: flags set in it hold for what follows. The row is
that of a sequence or of alternatives. -/
structure Parsed where
  regex : Regex
  row : Row
  flags : Flags
  groups : Groups

/-- A part in front of the rest of its sequence. -/
def Parsed.cons (a : Part) (b : Parsed) : Parsed :=
  { b with regex := .concat a.regex b.regex, row := b.row.cons a.depth }

/-- Flags in front of the rest of a sequence. Nothing is left of them, but they count. -/
def Parsed.behindFlags (b : Parsed) : Parsed := { b with row := b.row.cons 0 }

/-- A sequence as the only alternative. -/
def Parsed.alone (a : Parsed) : Parsed := { a with row := .single a.row.depth }

/-- A sequence in front of the other alternatives. -/
def Parsed.or (a b : Parsed) : Parsed :=
  { b with regex := .alt a.regex b.regex, row := b.row.cons a.row.depth }

/-- What stood in parentheses. -/
def Parsed.enclosed (a : Parsed) : Part := ⟨a.regex, a.row.depth + 1⟩

def Parsed.captured (index : Nat) (a : Parsed) : Part := ⟨.group index a.regex, a.row.depth + 1⟩

mutual
/-- Alternatives up to a closing parenthesis or the end. -/
def readAlternatives : Nat → Flags → Groups → List Char → Result (Parsed × List Char)
  | 0, _, _, _ => .error .unclosedGroup
  | n + 1, f, g, cs => do
    let (a, r) ← readSequence n f g cs
    match r with
    | '|' :: r =>
      let (b, r) ← readAlternatives n a.flags a.groups r
      return (a.or b, r)
    | r => return (a.alone, r)

def readSequence : Nat → Flags → Groups → List Char → Result (Parsed × List Char)
  | 0, _, _, _ => .error .unclosedGroup
  | n + 1, f, g, cs =>
    match skip f cs with
    | [] => .ok (⟨.empty, .empty, f, g⟩, [])
    | ')' :: r => .ok (⟨.empty, .empty, f, g⟩, ')' :: r)
    | '|' :: r => .ok (⟨.empty, .empty, f, g⟩, '|' :: r)
    | '(' :: r => do
      let ((opening, g), r) ← readOpening f g r
      match opening with
      | .flags f =>
        let (b, r) ← readSequence n f g r
        return (b.behindFlags, r)
      | .plain f' =>
        let (a, r) ← readAlternatives n f' g r
        readClosed n f a.groups a.enclosed r
      | .group i =>
        let (a, r) ← readAlternatives n f g r
        readClosed n f a.groups (a.captured i) r
    | '*' :: _ => .error .nothingToRepeat
    | '+' :: _ => .error .nothingToRepeat
    | '?' :: _ => .error .nothingToRepeat
    | '\x7b' :: _ => .error .nothingToRepeat
    | '[' :: r => do
      let (c, r) ← readClass f r
      readTail n f g (.unit (.chars c)) r
    | '.' :: r => do readTail n f g (.unit (← Item.any.toRegex f)) r
    | '^' :: r => readTail n f g (.unit (.look (caretLook f))) r
    | '$' :: r => readTail n f g (.unit (.look (dollarLook f))) r
    | '\\' :: r => do
      let (i, r) ← readEscape f r
      readTail n f g (.unit (← i.toRegex f)) r
    | c :: r => do readTail n f g (.unit (← (Item.literal c).toRegex f)) r

/-- A group's closing parenthesis and what follows the group. -/
def readClosed : Nat → Flags → Groups → Part → List Char → Result (Parsed × List Char)
  | 0, _, _, _, _ => .error .unclosedGroup
  | n + 1, f, g, a, cs =>
    match cs with
    | ')' :: r => readTail n f g a r
    | _ => .error .unclosedGroup

/-- The repetitions of an expression, then the rest of the sequence. -/
def readTail : Nat → Flags → Groups → Part → List Char → Result (Parsed × List Char)
  | 0, _, _, _, _ => .error .unclosedGroup
  | n + 1, f, g, a, cs => do
    let (a, r) ← readRepeats f (cs.length + 1) a cs
    let (b, r) ← readSequence n f g r
    return (.cons a b, r)
end

/-- Every reader above takes up a character or is entered at most three times for one. -/
def readWhole (cs : List Char) : Result Part := do
  let (p, r) ← readAlternatives (4 * cs.length + 4) {} {} cs
  match r with
  | [] => return ⟨p.regex, p.row.depth⟩
  | _ => .error .unopenedGroup

/-- An expression as a whole is held to the limits, whatever it was put together from. -/
def parseChars (cs : List Char) : Result Regex := do
  let a ← readWhole cs
  if nestLimit < a.depth then .error .tooDeep
  else if weightLimit < a.regex.weight then .error .tooLarge
  else return a.regex

def parse (source : String) : Result Regex := parseChars source.toList

end RouteEngine.Regex
