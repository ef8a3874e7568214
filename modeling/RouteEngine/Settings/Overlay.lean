import RouteEngine.Json.Basic

/-!
Laying one document over another. Where both have an object the fields are laid over one by one;
anywhere else the upper document replaces the lower one. Fields stay in ascending order.
-/

namespace RouteEngine.Json

mutual
def overlay (base : Json) : Json → Json
  | .object layer =>
    match base with
    | .object fields => .object (overlayFields fields layer)
    | _ => .object layer
  | layer => layer

def overlayFields (fields : List (String × Json)) : List (String × Json) → List (String × Json)
  | [] => fields
  | (k, v) :: rest =>
    match Dict.lookup k fields with
    | some old => overlayFields (Dict.insertEntry k (overlay old v) fields) rest
    | none => overlayFields (Dict.insertEntry k v fields) rest
end

end RouteEngine.Json
