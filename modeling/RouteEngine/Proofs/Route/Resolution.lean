import RouteEngine.Proofs.Table.Drawing

/-!
How a route comes to have a fixed controller and action. Both have to be known when the route is
built, and its path may capture neither; they are then put among the defaults of the route. What
the declaration asks for goes before what the defaults have. But only a controller that is asked
for is checked and gets the modules of the scope in front: one of the defaults is taken as it is.
-/

namespace RouteEngine.Declaration

open Outcome

variable {σ : Type} {d : Declaration σ} {scope : Scope σ} {names : List String}
  {defaults : Params} {resolved : Resolved} {c a : String}

/-- How a fixed controller and action are resolved, and what becomes of the defaults. -/
structure Fixes (scope : Scope σ) (controller action : Option String) (names : List String)
    (defaults : Params) (c a : String) (resolved : Resolved) : Prop where
  controller : resolveController scope controller names defaults = .ok (some c)
  action : resolveActionName action names defaults = .ok (some a)
  uncaptured : "controller" ∉ names ∧ "action" ∉ names
  defaults : resolved.defaults = (defaults.insert "controller" c).insert "action" a

theorem fixes_of_resolveAction {controller action : Option String}
    (h : resolveAction scope controller action names defaults = .ok resolved)
    (hendpoint : resolved.endpoint = .action c a) :
    Fixes scope controller action names defaults c a resolved := by
  obtain ⟨controller', hcontroller, h⟩ := bind_eq_ok.1 h
  obtain ⟨action', haction, h⟩ := bind_eq_ok.1 h
  obtain rfl := pure_eq_ok.1 h
  simp only at hendpoint
  split at hendpoint
  · split at hendpoint
    · cases hendpoint
    · next hfree =>
        cases hendpoint
        simp only [Bool.or_eq_true, List.contains_iff_mem, not_or] at hfree
        exact ⟨hcontroller, haction, hfree, rfl⟩
  · cases hendpoint

/-- Redirects and handles aside, a declaration resolves what it asks for, over the defaults of its
scope and its own. -/
theorem fixes_of_resolveEndpoint (h : d.resolveEndpoint scope names = .ok resolved)
    (hendpoint : resolved.endpoint = .action c a) :
    Fixes scope d.targetParts.1 d.targetParts.2 names (scope.defaults.override d.defaults) c a
      resolved := by
  unfold resolveEndpoint at h
  simp only at h
  split at h
  · cases h
    cases hendpoint
  · cases h
    cases hendpoint
  · exact fixes_of_resolveAction h hendpoint

theorem action_of_resolveActionName {action : Option String}
    (h : resolveActionName action names defaults = .ok (some a)) :
    action = some a ∨ action = none ∧ defaults.get? "action" = some a := by
  unfold resolveActionName at h
  split at h
  · cases h
    exact .inl rfl
  · split at h
    · cases h
    · split at h
      · next hdefault =>
          cases h
          exact .inr ⟨rfl, hdefault⟩
      · cases h

theorem isControllerName_of_checkController {name : String} (h : checkController name = .ok ()) :
    isControllerName name.toList = true := by
  unfold checkController at h
  split at h
  · cases h
  · split at h
    · next hname => exact hname
    · cases h

/-- A controller that is asked for has been checked before it is qualified; otherwise it is that
of the defaults. -/
theorem controller_of_resolveController {controller : Option String}
    (h : resolveController scope controller names defaults = .ok (some c)) :
    (∃ k, controller = some k ∧ isControllerName k.toList = true ∧
      c = scope.qualifyController k) ∨
      controller = none ∧ defaults.get? "controller" = some c := by
  unfold resolveController at h
  split at h
  · next k =>
      obtain ⟨_, hcheck, h⟩ := bind_eq_ok.1 h
      cases pure_eq_ok.1 h
      exact .inl ⟨k, rfl, isControllerName_of_checkController hcheck, rfl⟩
  · split at h
    · cases h
    · split at h
      · next hdefault =>
          cases h
          exact .inr ⟨rfl, hdefault⟩
      · cases h

end RouteEngine.Declaration
