import RouteEngine.Route.Redirect

/-!
What a matched route leads to. The handle names it to the surrounding program; the handle of a
dynamic endpoint is made of the controller and action among the delivered values.
-/

namespace RouteEngine

inductive Endpoint
  | action (controller action : String)
  /-- The controller or action is captured from the path. -/
  | dynamic
  | handle (name : String)
  | redirect (r : Redirect)

namespace Endpoint

def text : Endpoint → String
  | .action c a => c ++ "#" ++ a
  | .dynamic => ":controller#:action"
  | .handle name => name
  | .redirect r =>
    match r.template? with
    | some t => "redirect(" ++ toString r.status ++ ", " ++ t ++ ")"
    | none => "redirect(" ++ toString r.status ++ ")"

/-- Controller and action among the values, an absent one counting as empty. -/
def handleOf (params : Params) : String :=
  params.getD "controller" "" ++ "#" ++ params.getD "action" ""

def handleFor (params : Params) : Endpoint → String
  | .dynamic => handleOf params
  | other => other.text

end Endpoint

end RouteEngine
