/-!
Request methods: any token, compared exactly.
-/

namespace RouteEngine

/-- The characters of tokens, which are methods and header names. -/
def isTokenChar (c : Char) : Bool :=
  c.isAlphanum || ['!', '#', '$', '%', '&', '\'', '*', '+', '-', '.', '^', '_', '`', '|',
    '~'].contains c

structure Method where
  name : String
  deriving DecidableEq, Repr, Inhabited

namespace Method

def get : Method := ⟨"GET"⟩

def head : Method := ⟨"HEAD"⟩

def post : Method := ⟨"POST"⟩

def put : Method := ⟨"PUT"⟩

def patch : Method := ⟨"PATCH"⟩

def delete : Method := ⟨"DELETE"⟩

def options : Method := ⟨"OPTIONS"⟩

/-- Refuses what is empty or no token. -/
def parse? (name : String) : Option Method :=
  if name.toList.isEmpty || !name.toList.all isTokenChar then none else some ⟨name⟩

end Method

/-- ASCII letters in upper case. -/
def upperAscii (s : String) : String := String.ofList (s.toList.map Char.toUpper)

def lowerAscii (s : String) : String := String.ofList (s.toList.map Char.toLower)

end RouteEngine
