import RouteEngine.Request.Method

/-!
Header fields. Names are kept in lower case and have a greatest length; a value may hold any
character but controls other than the tab, and is text only when all of it is printable ASCII.
-/

namespace RouteEngine

structure Headers where
  fields : List (String × String)
  deriving DecidableEq, Repr, Inhabited

namespace Headers

def empty : Headers := ⟨[]⟩

/-- In bytes, of which every character of a name is one. -/
def maxNameLength : Nat := 65535

def name? (name : String) : Option String :=
  let cs := name.toList
  if cs.isEmpty || maxNameLength < cs.length || !cs.all isTokenChar then none
  else some (lowerAscii name)

def isValueChar (c : Char) : Bool := c = '\t' || (0x20 ≤ c.toNat && c.toNat ≠ 0x7F)

def isValue (value : String) : Bool := value.toList.all isValueChar

def isText (value : String) : Bool :=
  value.toList.all fun c => c = '\t' || (0x20 ≤ c.toNat && c.toNat < 0x7F)

/-- Puts a field in place of all fields of its name. -/
def set (h : Headers) (name value : String) : Headers :=
  ⟨h.fields.filter (fun f => f.1 ≠ name) ++ [(name, value)]⟩

/-- Sets a field, unless its name or value is not valid. -/
def setValid (h : Headers) (name value : String) : Headers :=
  match name? name with
  | some name => if isValue value then h.set name value else h
  | none => h

/-- Adds a field to those of its name; `none` for a name or value that is not valid. -/
def append? (h : Headers) (name value : String) : Option Headers :=
  match name? name with
  | some name => if isValue value then some ⟨h.fields ++ [(name, value)]⟩ else none
  | none => none

/-- The first field of the name, given in any case. -/
def get? (h : Headers) (name : String) : Option String :=
  (h.fields.find? fun f => f.1 = lowerAscii name).map (·.2)

/-- The first field of the name, if its value is text. -/
def text? (h : Headers) (name : String) : Option String :=
  (h.get? name).bind fun v => if isText v then some v else none

end Headers

end RouteEngine
