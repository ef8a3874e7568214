import RouteEngine.Proofs.Link.Missing

/-!
Paths without a name. The first route is taken that the values agree with, and its path is made
from the merged values. The two steps look at the values in different ways. Agreement asks only
whether a required key has a source, where an empty value counts, and it holds an expression
against the caller's value and the recalled one, where the path takes a default before the
recalled value. `pathOf_isOk_of_agrees` says what comes of it: for a route that agrees, making the
path fails exactly for an empty value or for a default that is not taken. Apart from these,
nothing but the absence of a route is reported (`path_unnamed`); with them, a route that cannot be
used hides a later one that can (`hides_of_empty_and_default`).
-/

namespace RouteEngine

open Outcome

variable {σ : Type}

/-- Nothing that the sources have stands in the way of the path: no required key gets an empty
value, and where the caller gives nothing for a name, its default is one that its expression
takes. -/
structure Route.IsFillable (r : Route σ) (explicit recalled : Params) : Prop where
  nonempty : ∀ n ∈ r.pattern.requiredNames, r.sourceOf explicit recalled n ≠ some ""
  defaults : ∀ n ∈ r.pattern.names, explicit.get? n = none →
    ∀ v ∈ r.defaults.get? n, v ≠ "" → r.pattern.Meets n v

instance (r : Route σ) (explicit recalled : Params) :
    Decidable (r.IsFillable explicit recalled) :=
  decidable_of_iff (_ ∧ _) ⟨fun h => ⟨h.1, h.2⟩, fun h => ⟨h.nonempty, h.defaults⟩⟩

namespace Linker

variable {l : Linker σ} {r : Route σ} {explicit : Params}

/-! ### Routes that agree -/

/-- An expression takes the caller's value or, if there is none, the recalled one. -/
theorem meets_of_agrees (h : l.agrees explicit r = true) :
    ∀ n ∈ r.pattern.names, ∀ v ∈ l.lookup explicit n, r.pattern.Meets n v := by
  simp only [agrees, Bool.and_eq_true, List.all_eq_true] at h
  intro n hn v hv whole hwhole
  have hvalue := h.1.2 n hn
  rw [Option.mem_def.1 hv, Option.mem_def.1 hwhole] at hvalue
  exact hvalue

/-- A required name has a source, be it an empty one. -/
theorem sourceOf_of_agrees (h : l.agrees explicit r = true) :
    ∀ n ∈ r.pattern.requiredNames, ∃ v, r.sourceOf explicit l.recalled n = some v := by
  simp only [agrees, Bool.and_eq_true, List.all_eq_true] at h
  intro n hn
  have hkey := h.2 n (Names.mem_distinct.2 hn)
  rw [← Option.ne_none_iff_exists', Route.sourceOf, if_pos hn]
  intro hnone
  simp only [Option.or_eq_none_iff] at hnone
  simp [Dict.contains, hnone] at hkey

/-- For a route that agrees with the values, the path is made unless an empty value or a default
stands in the way. -/
theorem pathOf_isOk_of_agrees (hsound : r.TemplateSound) (h : l.agrees explicit r = true) :
    (∃ path, l.pathOf r explicit = .ok path) ↔ r.IsFillable explicit l.recalled := by
  rw [pathOf_isOk_iff hsound]
  constructor
  · rintro ⟨hvalues, hrequired⟩
    refine ⟨fun n hn hempty => ?_, fun n hn hexplicit v hv hne => ?_⟩
    · refine hrequired n hn ?_
      rw [Route.valueOf, hempty]
      rfl
    · refine hvalues n hn v (Route.valueOf_eq_some.2 ⟨?_, hne⟩)
      rw [Route.sourceOf, hexplicit, Option.mem_def.1 hv]
      rfl
  · intro hfillable
    refine ⟨fun n hn v hv => ?_, fun n hn hnone => ?_⟩
    · obtain ⟨hv, hne⟩ := Route.valueOf_eq_some.1 hv
      -- In the first and the last case it is the value that agreement looked at.
      rcases Route.sourceOf_eq_some hv with hgiven | ⟨hgiven, hdefault⟩ | ⟨hgiven, hrecalled⟩
      · refine meets_of_agrees h n hn v ?_
        rw [lookup, hgiven]
        rfl
      · exact hfillable.defaults n hn hgiven v hdefault hne
      · refine meets_of_agrees h n hn v ?_
        rw [lookup, hgiven, Option.none_or]
        exact hrecalled
    · obtain ⟨v, hv⟩ := sourceOf_of_agrees h n hn
      have hne : v ≠ "" := by
        rintro rfl
        exact hfillable.nonempty n hn hv
      rw [Route.valueOf_eq_some.2 ⟨hv, hne⟩] at hnone
      cases hnone

/-! ### Selecting a route -/

theorem select_unnamed {source : LinkValues} (hkeyed : source.keyed? = some explicit)
    (hfind : l.table.routes.find? (l.agrees explicit) = some r) :
    l.select .unnamed source = .ok (r, explicit) := by
  simp only [select, hkeyed, hfind]

theorem path_of_find?_eq_none {source : LinkValues} (hsource : source.unfiltered? = none)
    (hkeyed : source.keyed? = some explicit)
    (hfind : l.table.routes.find? (l.agrees explicit) = none) :
    l.path .unnamed source =
      .error (.generation { kind := .noRouteMatches, params := explicit }) := by
  simp only [path, url, hsource, select, hkeyed, hfind]
  rfl

/-- Without a name, for values by their keys, the path is that of the first route that agrees. It
can be made exactly when no required key gets an empty value and no default of a capture is
refused; if so, a failure is reported as the absence of a route, and no route agrees. -/
theorem path_unnamed {entries : Entries σ} {settings : Settings} (source : LinkValues)
    (hdraw : Table.draw entries settings = .ok l.table) (hsource : source.unfiltered? = none)
    (hkeyed : source.keyed? = some explicit) :
    (∀ r, l.table.routes.find? (l.agrees explicit) = some r →
      ((∃ path, l.path .unnamed source = .ok path) ↔ r.IsFillable explicit l.recalled)) ∧
    ((∀ r, l.table.routes.find? (l.agrees explicit) = some r →
        r.IsFillable explicit l.recalled) →
      ∀ e, l.path .unnamed source = .error e →
        e = .generation { kind := .noRouteMatches, params := explicit } ∧
          ∀ r ∈ l.table.routes, l.agrees explicit r = false) := by
  have hiff : ∀ r, l.table.routes.find? (l.agrees explicit) = some r →
      ((∃ path, l.path .unnamed source = .ok path) ↔ r.IsFillable explicit l.recalled) := by
    intro r hr
    have hselect := select_unnamed hkeyed hr
    have hsound : r.TemplateSound :=
      Table.forall_routes_of_draw (fun _ _ _ _ => Route.templateSound_of_build) hdraw r
        (List.mem_of_find?_eq_some hr)
    exact (path_isOk_iff hsource hselect).trans
      (pathOf_isOk_of_agrees hsound (List.find?_some hr))
  refine ⟨hiff, fun hfillable e he => ?_⟩
  cases hfind : l.table.routes.find? (l.agrees explicit) with
  | some r =>
      obtain ⟨path, hpath⟩ := (hiff r hfind).2 (hfillable r hfind)
      rw [hpath] at he
      cases he
  | none =>
      rw [path_of_find?_eq_none hsource hkeyed hfind] at he
      cases he
      exact ⟨rfl, by simpa using List.find?_eq_none.1 hfind⟩

/-- Widgets by their numbers, and by any text in the shops that have them. -/
def widgets : Entries Unit :=
  .ofDeclarations [
    { path := "/widgets/:id", target := some "widgets#show", requirements := [("id", "[0-9]+")] },
    { path := "/:shop/widgets/:id", target := some "widgets#show" }]

def inFifthShop (t : Table Unit) : Linker Unit :=
  { table := t, defaults := {}, optimize := true, recalled := .ofList [("shop", "5")] }

def blueWidget : Params :=
  .ofList [("action", "show"), ("controller", "widgets"), ("id", "blue")]

def blueGadget : Params := blueWidget.insert "controller" "gadgets"

/-- The first route does not take the text, the second does, with the recalled shop. No route is
about gadgets. -/
theorem path_unnamed_widgets :
    ∃ (t : Table Unit) (r : Route Unit) (path : String), Table.draw widgets {} = .ok t ∧
      t.routes.find? ((inFifthShop t).agrees blueWidget) = some r ∧
      r.path = "/:shop/widgets/:id(.:format)" ∧
      (inFifthShop t).path .unnamed (.keyed blueWidget) = .ok path ∧
      (inFifthShop t).path .unnamed (.keyed blueGadget) =
        .error (.generation { kind := .noRouteMatches, params := blueGadget }) := by
  have hcheck : ((Table.draw widgets {}).toOption.bind fun t =>
      (t.routes.find? ((inFifthShop t).agrees blueWidget)).filter fun r =>
        decide (r.path = "/:shop/widgets/:id(.:format)" ∧
          r.IsFillable blueWidget (inFifthShop t).recalled) &&
        (t.routes.find? ((inFifthShop t).agrees blueGadget)).isNone &&
        (failure? ((inFifthShop t).path .unnamed (.keyed blueGadget))).isSome).isSome = true := by
    decide +kernel
  obtain ⟨r, hr⟩ := Option.isSome_iff_exists.1 hcheck
  obtain ⟨t, hdraw, hr⟩ := Option.bind_eq_some_iff.1 hr
  have hdraw := toOption_eq_some.1 hdraw
  obtain ⟨hfind, hr⟩ := Option.filter_eq_some_iff.1 hr
  simp only [Bool.and_eq_true, decide_eq_true_eq, Option.isNone_iff_eq_none] at hr
  obtain ⟨⟨⟨hpath, hfillable⟩, hnone⟩, hfailed⟩ := hr
  obtain ⟨e, he⟩ := Option.isSome_iff_exists.1 hfailed
  have hwidget := path_unnamed (l := inFifthShop t) (.keyed blueWidget) hdraw rfl rfl
  have hgadget := path_unnamed (l := inFifthShop t) (.keyed blueGadget) hdraw rfl rfl
  obtain ⟨path, hmade⟩ := (hwidget.1 r hfind).2 hfillable
  have hno : ∀ r, (inFifthShop t).table.routes.find? ((inFifthShop t).agrees blueGadget) =
      some r → r.IsFillable blueGadget (inFifthShop t).recalled := by
    intro r hr
    rw [show (inFifthShop t).table = t from rfl, hnone] at hr
    cases hr
  obtain ⟨heq, -⟩ := hgadget.2 hno _ (failure?_eq_some.1 he)
  exact ⟨t, r, path, hdraw, hfind, hpath, hmade, heq ▸ failure?_eq_some.1 he⟩

/-- For the values the earlier route is taken and fails in this way, and without it the later one
gives the path. -/
def Hides (earlier later : Declaration Unit) (values : List (String × String))
    (kind : GenerationFailure) (text : String) : Prop :=
  ∃ t t' e, Table.draw (.ofDeclarations [earlier, later]) {} = .ok t ∧
    Table.draw (.ofDeclarations [later]) {} = .ok t' ∧
    Linker.path (.ofTable t {}) .unnamed (.keyed (.ofList values)) = .error (.generation e) ∧
    e.kind = kind ∧ Linker.path (.ofTable t' {}) .unnamed (.keyed (.ofList values)) = .ok text

theorem hides_of_draw {earlier later : Declaration Unit} {values : List (String × String)}
    {kind : GenerationFailure} {text : String}
    (hearlier : ((Table.draw (.ofDeclarations [earlier, later]) {}).toOption.bind fun t =>
      (failure? (Linker.path (.ofTable t {}) .unnamed (.keyed (.ofList values)))).map
        (·.kind)) = some kind)
    (hlater : ((Table.draw (.ofDeclarations [later]) {}).toOption.bind fun t =>
      (Linker.path (.ofTable t {}) .unnamed (.keyed (.ofList values))).toOption) = some text) :
    Hides earlier later values kind text := by
  obtain ⟨t, hdraw, hfailed⟩ := Option.bind_eq_some_iff.1 hearlier
  obtain ⟨e, he, hkind⟩ := Option.map_eq_some_iff.1 hfailed
  obtain ⟨t', hdraw', hmade⟩ := Option.bind_eq_some_iff.1 hlater
  exact ⟨t, t', e, toOption_eq_some.1 hdraw, toOption_eq_some.1 hdraw', failure?_eq_some.1 he,
    hkind, toOption_eq_some.1 hmade⟩

def postBySlug : Declaration Unit := { path := "/posts/by/:slug", target := some "posts#show" }

/-- An empty number counts for the choice of the route and not for its path. So does a default
that the expression of its capture does not take: nothing but the path looks at it. -/
theorem hides_of_empty_and_default :
    Hides { path := "/posts/:id", target := some "posts#show" } postBySlug
        [("action", "show"), ("controller", "posts"), ("id", ""), ("slug", "x")]
        .missingKeys "/posts/by/x?id=" ∧
      Hides { path := "/posts/:id", target := some "posts#show"
              requirements := [("id", "[0-9]+")], defaults := .ofList [("id", "none")] } postBySlug
        [("action", "show"), ("controller", "posts"), ("slug", "x")]
        .rejectedValues "/posts/by/x" :=
  ⟨hides_of_draw (by decide +kernel) (by decide +kernel),
    hides_of_draw (by decide +kernel) (by decide +kernel)⟩

end Linker

end RouteEngine
