import RouteEngine.Route.Basic

/-!
Where the values for a URL come from. Values taken from a request are refused until they have
been permitted, which may also drop some of them.
-/

namespace RouteEngine

structure RequestParams where
  values : Params
  permitted : Bool := false
  deriving DecidableEq, Repr

def RequestParams.permitAll (p : RequestParams) : RequestParams := { p with permitted := true }

/-- Keeps the values of these keys only, which are permitted from then on. -/
def RequestParams.permit (p : RequestParams) (keys : List String) : RequestParams :=
  ⟨p.values.filter fun k _ => keys.contains k, true⟩

inductive LinkValues
  /-- The values of the required captures in order, or those of all captures when there are more
  values than required captures. -/
  | positional (values : List String)
  | keyed (values : Params)
  | request (params : RequestParams)
  deriving DecidableEq, Repr

namespace LinkValues

/-- The keys of request values that were not permitted. -/
def unfiltered? : LinkValues → Option (List String)
  | request p => if p.permitted then none else some p.values.keys
  | _ => none

/-- The values by their keys; positional values have none. -/
def keyed? : LinkValues → Option Params
  | positional _ => none
  | keyed values => some values
  | request p => some p.values

/-- The names that positional values are given to. -/
def positionalNames (p : Pattern) (count : Nat) : List String :=
  if p.requiredNames.length < count then p.names else p.requiredNames

/-- The values by the names of the pattern. Of several values for one name the last counts. -/
def bind (p : Pattern) : LinkValues → Params
  | positional values => Dict.ofList ((positionalNames p values.length).zip values)
  | keyed values => values
  | request params => params.values

end LinkValues

end RouteEngine
