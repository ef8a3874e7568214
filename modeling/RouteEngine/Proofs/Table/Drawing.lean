import RouteEngine.Proofs.Outcome
import RouteEngine.Table.Basic

/-!
What is known of the routes of a drawn table. Routes enter a table in one way only, by building a
declaration in the scope it stands in, so a property that building gives is a property of every
route drawn. Building itself is taken apart once, by `buildPermitted_eq_ok`.
-/

namespace RouteEngine

open Outcome

variable {σ : Type}

namespace Declaration

/-! ### Building a declaration -/

/-- Everything that building does when it succeeds: what it reads from the path, what it resolves
and checks, and the route that it puts together from that. -/
theorem buildPermitted_eq_ok {d : Declaration σ} {scope : Scope σ} {settings : Settings}
    {precedence : Nat} {r : Route σ}
    (h : d.buildPermitted scope settings precedence = .ok r) :
    ∃ names resolved predicates,
      Pattern.parseNames (d.scopedPath scope settings) = .ok names ∧
      d.qualifiedName scope = .ok r.name ∧
      d.resolveEndpoint scope names = .ok resolved ∧
      checkKeys ((d.mergedConstraints scope names).map (·.1) ++ resolved.defaults.keys ++
        d.requirements.map (·.1)) = .ok () ∧
      boundPredicates d.requestConstraints = .ok predicates ∧
      Pattern.compile (d.scopedPath scope settings)
        (d.requirementsIn names (d.mergedConstraints scope names)) d.anchored = .ok r.pattern ∧
      r.verbs = d.verbs ∧ r.precedence = precedence ∧
      r.constraints = boundConstraints names (d.mergedConstraints scope names) ++ predicates ∧
      r.defaults = resolved.defaults ∧ r.endpoint = resolved.endpoint ∧
      r.template = templateOf r.pattern r.constraints := by
  unfold buildPermitted at h
  obtain ⟨names, hnames, h⟩ := bind_eq_ok.1 h
  obtain ⟨name, hname, h⟩ := bind_eq_ok.1 h
  obtain ⟨resolved, hresolved, h⟩ := bind_eq_ok.1 h
  obtain ⟨_, hkeys, h⟩ := bind_eq_ok.1 h
  obtain ⟨predicates, hpredicates, h⟩ := bind_eq_ok.1 h
  obtain ⟨pattern, hpattern, h⟩ := bind_eq_ok.1 h
  obtain rfl := pure_eq_ok.1 h
  exact ⟨names, resolved, predicates, mapError_eq_ok.1 hnames, mapError_eq_ok.1 hname,
    mapError_eq_ok.1 hresolved, mapError_eq_ok.1 hkeys, hpredicates, mapError_eq_ok.1 hpattern,
    rfl, rfl, rfl, rfl, rfl, rfl⟩

theorem buildPermitted_of_build {d : Declaration σ} {scope : Scope σ} {settings : Settings}
    {precedence : Nat} {r : Route σ}
    (h : d.build scope settings precedence = .ok (some r)) :
    d.buildPermitted scope settings precedence = .ok r := by
  unfold build at h
  split at h
  · obtain ⟨r', hr', heq⟩ := map_eq_ok.1 h
    cases heq
    exact hr'
  · simp at h

theorem template_of_build {d : Declaration σ} {scope : Scope σ} {settings : Settings}
    {precedence : Nat} {r : Route σ}
    (h : d.build scope settings precedence = .ok (some r)) :
    r.template = templateOf r.pattern r.constraints := by
  obtain ⟨_, _, _, -, -, -, -, -, -, -, -, -, -, -, htemplate⟩ :=
    buildPermitted_eq_ok (buildPermitted_of_build h)
  exact htemplate

theorem pattern_of_build {d : Declaration σ} {scope : Scope σ} {settings : Settings}
    {precedence : Nat} {r : Route σ}
    (h : d.build scope settings precedence = .ok (some r)) :
    ∃ source requirements anchored,
      Pattern.compile source requirements anchored = .ok r.pattern := by
  obtain ⟨_, _, _, -, -, -, -, -, hpattern, -⟩ :=
    buildPermitted_eq_ok (buildPermitted_of_build h)
  exact ⟨_, _, _, hpattern⟩

end Declaration

namespace Table

/-! ### Drawing -/

variable {settings : Settings} {P : Route σ → Prop}

theorem routes_of_add {t t' : Table σ} {r : Route σ} (h : t.add r = .ok t') :
    t'.routes = t.routes ++ [r] := by
  unfold add at h
  split at h
  · simp at h
  · split at h
    · simp at h
    · cases h
      rfl

theorem routes_of_declare {t t' : Table σ} {scope : Scope σ} {d : Declaration σ}
    (h : t.declare settings scope d = .ok t') :
    t'.routes = t.routes ∨
      ∃ r, d.build scope settings t.size = .ok (some r) ∧ t'.routes = t.routes ++ [r] := by
  unfold declare at h
  obtain ⟨built, hbuilt, h⟩ := bind_eq_ok.1 h
  cases built with
  | none =>
      obtain rfl := pure_eq_ok.1 h
      exact .inl rfl
  | some r => exact .inr ⟨r, hbuilt, routes_of_add (mapError_eq_ok.1 h)⟩

theorem forall_routes_of_drawIn
    (hP : ∀ d scope n r, Declaration.build d scope settings n = .ok (some r) → P r)
    {entries : Entries σ} {scope : Scope σ} {t t' : Table σ}
    (h : drawIn settings scope entries t = .ok t') (ht : ∀ r ∈ t.routes, P r) :
    ∀ r ∈ t'.routes, P r := by
  -- The entries are drawn in their order, each into the table that those before it left.
  induction entries generalizing scope t t' with
  | done =>
      cases h
      exact ht
  | route d next ih =>
      obtain ⟨t₁, hdeclare, h⟩ := bind_eq_ok.1 h
      refine ih h fun r hr => ?_
      rcases routes_of_declare hdeclare with heq | ⟨new, hbuild, heq⟩
      · exact ht r (heq ▸ hr)
      · rw [heq] at hr
        rcases List.mem_append.1 hr with hr | hr
        · exact ht r hr
        · exact List.mem_singleton.1 hr ▸ hP d scope t.size new hbuild
  | scope frame inner next ihInner ihNext =>
      obtain ⟨t₁, hinner, h⟩ := bind_eq_ok.1 h
      exact ihNext h (ihInner hinner ht)

/-- What building gives every route, every route of a drawn table has. -/
theorem forall_routes_of_draw
    (hP : ∀ d scope n r, Declaration.build d scope settings n = .ok (some r) → P r)
    {entries : Entries σ} {t : Table σ} (h : draw entries settings = .ok t) :
    ∀ r ∈ t.routes, P r :=
  forall_routes_of_drawIn hP h fun r hr => absurd hr (by simp [empty])

theorem exists_compile_of_draw {entries : Entries σ} {t : Table σ}
    (h : draw entries settings = .ok t) :
    ∀ r ∈ t.routes, ∃ source requirements anchored,
      Pattern.compile source requirements anchored = .ok r.pattern :=
  forall_routes_of_draw (fun _ _ _ _ => Declaration.pattern_of_build) h

theorem mem_of_route?_eq_some {t : Table σ} {name : String} {r : Route σ}
    (h : t.route? name = some r) : r ∈ t.routes :=
  List.mem_of_find?_eq_some h

/-- A fact about a named route that was evaluated is one about the route of the drawn table. -/
theorem exists_route_of_filter {entries : Entries σ} {name : String}
    {p : Table σ → Route σ → Bool} (h : ((draw entries settings).toOption.bind fun t =>
      (t.route? name).filter (p t)).isSome = true) :
    ∃ t r, draw entries settings = .ok t ∧ t.route? name = some r ∧ p t r = true := by
  obtain ⟨r, hr⟩ := Option.isSome_iff_exists.1 h
  obtain ⟨t, ht, hr⟩ := Option.bind_eq_some_iff.1 hr
  obtain ⟨hroute, hp⟩ := Option.filter_eq_some_iff.1 hr
  exact ⟨t, r, toOption_eq_some.1 ht, hroute, hp⟩

end Table

end RouteEngine
