import RouteEngine.Proofs.Route.Nesting
import RouteEngine.Proofs.Route.Resolution
import RouteEngine.Proofs.Table.Drawn

/-!
Filters of actions. The innermost frame with a filter decides which actions may be declared inside
it. An action that a declaration asks for, in its target or by itself, has to pass, or there is no
route. But a declaration that asks for none is not looked at, and its route takes the action of the
defaults, be they its own or those of a frame: that is the one way in which a route has an action
that the filter excludes (`actions_permitted`, `exists_excluded_default`).
-/

namespace RouteEngine

open Outcome

variable {σ : Type}

/-- The filter in force inside the frames, if there is one, lets the action through. -/
def permitsIn (frames : List (ScopeFrame σ)) (action : String) : Bool :=
  (innermost (·.filter) frames).all (·.permits action)

theorem Scope.permits_nestAll (frames : List (ScopeFrame σ)) (action : String) :
    (root.nestAll frames).permits action = permitsIn frames action := by
  rw [permits, filter_nestAll, permitsIn]
  cases innermost (·.filter) frames <;> rfl

-- The inner filter lets an action through that the outer one excludes.
example :
    let outer : ScopeFrame Unit := { filter := some (.except ["show"]) }
    let inner : ScopeFrame Unit := { filter := some (.only ["show"]) }
    permitsIn [outer, inner] "show" = true := by
  decide +kernel

namespace Declaration

variable {d : Declaration σ} {scope : Scope σ} {names : List String} {resolved : Resolved}
  {c a : String}

/-- The action that a declaration asks for. -/
def asked (d : Declaration σ) : Option String := d.targetParts.2

/-- The action among the defaults, those of the declaration before those of its frames. -/
def defaultAction (d : Declaration σ) (frames : List (ScopeFrame σ)) : Option String :=
  (d.defaults.get? "action").or (innermost (·.defaults.get? "action") frames)

/-- A fixed action is the one asked for, or where none is, that of the defaults. -/
theorem action_of_resolveEndpoint (h : d.resolveEndpoint scope names = .ok resolved)
    (hendpoint : resolved.endpoint = .action c a) :
    d.asked = some a ∨
      d.asked = none ∧ (scope.defaults.override d.defaults).get? "action" = some a :=
  action_of_resolveActionName (fixes_of_resolveEndpoint h hendpoint).action

section Built

variable {frames : List (ScopeFrame σ)} {settings : Settings} {place : Nat}
  {built : Option (Route σ)}

/-- What the declaration builds to, as far as the filter in force goes: nothing when it asks for
an excluded action, and else no route with one, but for an action that it did not ask for. -/
structure Filtered (e : List (ScopeFrame σ) × Declaration σ) (built : Option (Route σ)) : Prop where
  excluded : ∀ a, e.2.asked = some a → permitsIn e.1 a = false → built = none
  permitted : ∀ r c a, built = some r → r.endpoint = .action c a →
    permitsIn e.1 a = true ∨ e.2.asked = none ∧ e.2.defaultAction e.1 = some a

theorem isPermitted_of_asked (h : d.asked = some a) :
    d.isPermitted (Scope.root.nestAll frames) = permitsIn frames a := by
  rw [← Scope.permits_nestAll, isPermitted, show d.targetParts.2 = some a from h]

theorem filtered_of_build (h : d.build (Scope.root.nestAll frames) settings place = .ok built) :
    Filtered (frames, d) built where
  excluded a hasked hexcluded := by
    rw [build, isPermitted_of_asked hasked, if_neg (Bool.eq_false_iff.1 hexcluded)] at h
    exact (Except.ok.inj h).symm
  permitted r c a hbuilt hendpoint := by
    subst hbuilt
    obtain ⟨names, resolved, -, -, -, hresolved, -, -, -, -, -, -, -, heq, -⟩ :=
      buildPermitted_eq_ok (buildPermitted_of_build h)
    obtain hasked | ⟨hnone, hdefault⟩ := action_of_resolveEndpoint hresolved (heq ▸ hendpoint)
    · refine .inl ?_
      cases hpermitted : permitsIn frames a with
      | true => rfl
      | false =>
          rw [build, isPermitted_of_asked hasked, hpermitted] at h
          cases h
    · refine .inr ⟨hnone, ?_⟩
      rwa [Dict.get?_override, Scope.get?_defaults_nestAll] at hdefault

end Built

/-- The routes of a drawn table are what the declarations build to inside their frames, and the
fixed action of each is permitted by the filter in force there, unless the declaration asks for
none and it is the default. A declaration that asks for an excluded action has no route. -/
theorem actions_permitted {entries : Entries σ} {settings : Settings} {t : Table σ}
    (h : Table.draw entries settings = .ok t) :
    ∃ built,
      List.Forall₂ (fun e b => BuildsIn settings e b ∧ Filtered e b) (entries.inFrames []) built ∧
      t.routes = built.filterMap id := by
  rw [Table.draw_eq_foldlM] at h
  obtain ⟨built, hbuilt, hroutes⟩ := Table.exists_built_of_foldlM h
  refine ⟨built, hbuilt.imp ?_, hroutes⟩
  intro e b hb
  obtain ⟨place, hplace⟩ := hb
  exact ⟨⟨place, hplace⟩, filtered_of_build hplace⟩

/-- Inside this frame nothing is destroyed. -/
def keeping : ScopeFrame Unit := { filter := some (.except ["destroy"]) }

def kept (d : Declaration Unit) : Entries Unit := .scope keeping (.route d .done) .done

/-- The only route of the table has the action. -/
def hasAction (a : String) (t : Table Unit) : Bool :=
  match t.routes with
  | [r] =>
    match r.endpoint with
    | .action _ b => b = a
    | _ => false
  | _ => false

theorem hasAction_eq_true {t : Table Unit} (h : hasAction a t = true) :
    ∃ r c, t.routes = [r] ∧ r.endpoint = .action c a := by
  unfold hasAction at h
  split at h
  · next r hroutes =>
      split at h
      · next c b hendpoint =>
          obtain rfl := of_decide_eq_true h
          exact ⟨r, c, hroutes, hendpoint⟩
      · cases h
  · cases h

def postsIndex : Declaration Unit := { path := "/posts", target := some "posts#index" }

theorem actions_permitted_postsIndex :
    ∃ t r c, Table.draw (kept postsIndex) {} = .ok t ∧ t.routes = [r] ∧
      r.endpoint = .action c "index" ∧ permitsIn [keeping] "index" = true := by
  have hdrawn : (Table.draw (kept postsIndex) {}).toOption.any (hasAction "index") = true := by
    decide +kernel
  obtain ⟨t, ht, hdrawn⟩ := exists_ok_of_any hdrawn
  obtain ⟨r, c, hroutes, hendpoint⟩ := hasAction_eq_true hdrawn
  obtain ⟨built, hbuilt, hall⟩ := actions_permitted ht
  cases hbuilt with
  | @cons e b _ _ hb hnil =>
      cases hnil
      obtain rfl : b = some r := by
        cases b with
        | none => simp [hroutes] at hall
        | some r' =>
            rw [hroutes] at hall
            cases hall
            rfl
      obtain hpermitted | ⟨hnone, -⟩ := hb.2.permitted r c "index" rfl hendpoint
      · exact ⟨t, r, c, ht, hroutes, hendpoint, hpermitted⟩
      · exact absurd hnone (by decide)

def postsByDefault : Declaration Unit :=
  { path := "/posts", controller := some "posts"
    defaults := Dict.ofList [("action", "destroy")] }

/-- An action that comes from the defaults is declared though the filter excludes it. -/
theorem exists_excluded_default :
    ∃ t r c, Table.draw (kept postsByDefault) {} = .ok t ∧ t.routes = [r] ∧
      r.endpoint = .action c "destroy" ∧ permitsIn [keeping] "destroy" = false := by
  have hdrawn : (Table.draw (kept postsByDefault) {}).toOption.any (hasAction "destroy") =
      true := by
    decide +kernel
  obtain ⟨t, ht, hdrawn⟩ := exists_ok_of_any hdrawn
  obtain ⟨r, c, hroutes, hendpoint⟩ := hasAction_eq_true hdrawn
  exact ⟨t, r, c, ht, hroutes, hendpoint, rfl⟩

end Declaration

end RouteEngine
