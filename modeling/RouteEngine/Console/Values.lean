import RouteEngine.Link.Linker

/-!
Values on a command line: pairs of a key and a value with an equals sign between them, or values
alone.
-/

namespace RouteEngine.CommandValues

/-- Cuts every text at its first equals sign. -/
def pairs : List String → Except RoutingError (List (String × String))
  | [] => .ok []
  | v :: rest =>
    match Text.splitFirst '=' v.toList with
    | none => .error (.configuration (.notPair v))
    | some (key, value) => do
      let ps ← pairs rest
      return (String.ofList key, String.ofList value) :: ps

def isPair (v : String) : Bool := v.toList.contains '='

/-- All pairs or no pairs. -/
def linkValues (values : List String) : Except RoutingError LinkValues :=
  if values.all isPair then (pairs values).map fun ps => .keyed (Dict.ofList ps)
  else if values.any isPair then .error (.configuration .mixedParams)
  else .ok (.positional values)

def link {σ : Type} (l : Linker σ) (name : Option String) (values : List String)
    (o : LinkOptions) : Except RoutingError String := do
  let source ← linkValues values
  let target := match name with
    | some n => LinkTarget.named n
    | none => .unnamed
  l.url target source o

end RouteEngine.CommandValues
