import RouteEngine.Request.Method

/-!
The methods that a route answers. A `HEAD` request is also answered where `GET` is listed.
-/

namespace RouteEngine

inductive Verbs
  | any
  | only (methods : List Method)
  deriving DecidableEq, Repr

namespace Verbs

def accepts (m : Method) : Verbs → Bool
  | any => true
  | only ms => ms.contains m || (m = Method.head && ms.contains Method.get)

/-- Both are open to every method, or they list a method in common. -/
def overlaps : Verbs → Verbs → Bool
  | any, _ => true
  | _, any => true
  | only as, only bs => as.any bs.contains

/-- The listed methods, none for every method. -/
def methods : Verbs → List Method
  | any => []
  | only ms => ms

def text : Verbs → String
  | any => "ANY"
  | only ms => "|".intercalate (ms.map (·.name))

end Verbs

end RouteEngine
