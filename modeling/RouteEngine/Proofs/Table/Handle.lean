import RouteEngine.Proofs.Pattern.Required
import RouteEngine.Proofs.Route.Resolution
import RouteEngine.Proofs.Table.Matched
import RouteEngine.Proofs.Table.Recognition

/-!
Handles of matches. The handle of a fixed controller and action is printed from what was resolved
when the route was built, and the handle of a dynamic endpoint from the values of the match. Both
say what the values say: the fixed pair stands among the defaults of its route, and no capture can
change it there, since the path of such a route has no capture of these names (`KeepsAction`). So
whoever dispatches by the values calls what the handle names (`handle_of_gives`).
-/

namespace RouteEngine

open Outcome

variable {σ : Type}

/-- The endpoint is a controller and action, be they fixed or captured. -/
def Endpoint.isDispatched : Endpoint → Bool
  | .action _ _ => true
  | .dynamic => true
  | _ => false

/-- The delivered values have the fixed controller and action, whatever the path captures. -/
def Route.KeepsAction (r : Route σ) : Prop :=
  ∀ c a, r.endpoint = .action c a → ∀ path captured, r.pattern.matchPath path = some captured →
    (r.paramsFor captured.params).get? "controller" = some c ∧
      (r.paramsFor captured.params).get? "action" = some a

/-- What the path does not capture is delivered as it is among the defaults. -/
theorem Route.get?_paramsFor_of_not_mem {r : Route σ} {source : String}
    {requirements : Dict String} {anchored : Bool}
    (hp : Pattern.compile source requirements anchored = .ok r.pattern) {path : String}
    {captured : Pattern.Captured} (hpath : r.pattern.matchPath path = some captured)
    {key : String} (hkey : key ∉ r.pattern.names) :
    (r.paramsFor captured.params).get? key = r.defaults.get? key := by
  have hnone : captured.params.get? key = none :=
    Option.eq_none_iff_forall_ne_some.2 fun _ hv =>
      hkey (Pattern.mem_names_of_captured hp hpath hv)
  rw [paramsFor, Dict.get?_override, hnone, Option.none_or]

theorem Declaration.keepsAction_of_build {d : Declaration σ} {scope : Scope σ}
    {settings : Settings} {place : Nat} {r : Route σ}
    (h : d.build scope settings place = .ok (some r)) : r.KeepsAction := by
  intro c a hendpoint path captured hpath
  obtain ⟨names, resolved, -, hnames, -, hresolved, -, -, hpattern, -, -, -, hdefaults, heq, -⟩ :=
    buildPermitted_eq_ok (buildPermitted_of_build h)
  have hfixes := fixes_of_resolveEndpoint hresolved (heq ▸ hendpoint)
  obtain ⟨hcontroller, haction⟩ := hfixes.uncaptured
  rw [← Pattern.names_of_compile hpattern hnames] at hcontroller haction
  rw [Route.get?_paramsFor_of_not_mem hpattern hpath hcontroller,
    Route.get?_paramsFor_of_not_mem hpattern hpath haction, hdefaults, hfixes.defaults]
  simp

namespace Table

/-- Whatever match a drawn table gives for a request, its handle is the controller and the action
among its values, with nothing for one that is not there, if its endpoint has them at all; and if
they are fixed, both are there. -/
theorem handle_of_gives {entries : Entries σ} {settings : Settings} {t : Table σ}
    (hdraw : draw entries settings = .ok t) {request : Request} {m : RouteMatch σ}
    (hm : t.Gives request m) :
    (m.route.endpoint.isDispatched = true →
      m.handle = (m.params.get? "controller").getD "" ++ "#" ++
        (m.params.get? "action").getD "") ∧
    ∀ c a, m.route.endpoint = .action c a →
      m.params.get? "controller" = some c ∧ m.params.get? "action" = some a := by
  have hkeeps : ∀ r ∈ t.routes, r.KeepsAction :=
    forall_routes_of_draw (fun _ _ _ _ => Declaration.keepsAction_of_build) hdraw
  obtain ⟨path, -, r, hr, s, s', hattempt⟩ := madeBy_of_gives hm
  obtain ⟨captured, hpath, -, rfl⟩ := Route.captured_of_attempt hattempt
  have hfixed : ∀ c a, r.endpoint = .action c a →
      (r.paramsFor captured.params).get? "controller" = some c ∧
        (r.paramsFor captured.params).get? "action" = some a :=
    fun c a hendpoint => hkeeps r hr c a hendpoint path captured hpath
  refine ⟨fun hdispatched => ?_, hfixed⟩
  rw [RouteMatch.handle]
  cases hendpoint : r.endpoint with
  | action c a =>
      obtain ⟨hcontroller, haction⟩ := hfixed c a hendpoint
      simp only [hcontroller, haction]
      rfl
  | dynamic => rfl
  | handle name => simp [hendpoint, Endpoint.isDispatched] at hdispatched
  | redirect target => simp [hendpoint, Endpoint.isDispatched] at hdispatched

/-- Posts in a module, with an action that the frame gives. -/
def moduledPosts : Entries Unit :=
  .scope { module := some "admin", defaults := .ofList [("action", "show")] }
    (.route { path := "/posts/:id", controller := some "posts" } .done) .done

theorem handle_of_gives_moduledPosts :
    ∃ t m, draw moduledPosts {} = .ok t ∧ t.Gives { path := "/posts/7.json" } m ∧
      m.route.endpoint.isDispatched = true ∧
      m.handle = (m.params.get? "controller").getD "" ++ "#" ++
        (m.params.get? "action").getD "" := by
  have hcheck : ((draw moduledPosts {}).toOption.bind fun t =>
      (t.recognize { path := "/posts/7.json" } ()).1.toOption.bind fun found =>
        found.match?.filter fun m => m.route.endpoint.isDispatched).isSome = true := by
    decide +kernel
  obtain ⟨m, hm⟩ := Option.isSome_iff_exists.1 hcheck
  obtain ⟨t, ht, hm⟩ := Option.bind_eq_some_iff.1 hm
  obtain ⟨found, hfound, hm⟩ := Option.bind_eq_some_iff.1 hm
  obtain ⟨hmatch, hdispatched⟩ := Option.filter_eq_some_iff.1 hm
  rw [Recognition.match?_eq_some.1 hmatch] at hfound
  have hdraw := toOption_eq_some.1 ht
  have hgives : t.Gives { path := "/posts/7.json" } m := ⟨(), .inl (toOption_eq_some.1 hfound)⟩
  exact ⟨t, m, hdraw, hgives, hdispatched, (handle_of_gives hdraw hgives).1 hdispatched⟩

end Table

end RouteEngine
