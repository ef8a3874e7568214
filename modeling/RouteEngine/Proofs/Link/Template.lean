import RouteEngine.Link.Linker
import RouteEngine.Proofs.Pattern.Template
import RouteEngine.Proofs.Table.Drawing

/-!
Filling the template of a route instead of its whole pattern changes no URL and no error. Building
keeps a template only where every group has a capture of its own that the path does not require,
and the linker uses it only when no optional name is wanted, so that every group would be left
out. Below, `pathOf_of_template` says this for one route and `url_optimize_irrelevant` for all
that a linker over a drawn table answers.
-/

namespace RouteEngine

open Outcome

variable {σ : Type}

/-- The route has a template only where leaving out all groups is what an absent optional name
leads to. -/
def Route.TemplateSound (r : Route σ) : Prop :=
  r.template = none ∨
    r.template = some r.pattern.segments.template ∧ r.pattern.segments.groupsCapture = true ∧
      r.pattern.segments.repeatsRequired = false

theorem Route.templateSound_of_build {d : Declaration σ} {scope : Scope σ} {settings : Settings}
    {precedence : Nat} {r : Route σ}
    (h : d.build scope settings precedence = .ok (some r)) : r.TemplateSound := by
  have htemplate := Declaration.template_of_build h
  unfold Declaration.templateOf at htemplate
  split at htemplate
  · next hsound =>
      simp only [Bool.and_eq_true, Bool.not_eq_true'] at hsound
      exact .inr ⟨htemplate, hsound.1.1, hsound.1.2⟩
  · exact .inl htemplate

namespace Linker

/-- Filling the template gives the same names and the same text as writing the pattern. -/
theorem fillTemplate_of_not_wanted {r : Route σ} (values : Params) {wanted : String → Bool}
    (hgroups : r.pattern.segments.groupsCapture = true)
    (hrepeat : r.pattern.segments.repeatsRequired = false)
    (hwanted : r.pattern.optionalNames.any wanted = false) :
    (fillTemplate values r.pattern.segments.template).result =
      r.pattern.generate values wanted := by
  have hout : r.pattern.segments.groupsLeftOut fun n => wanted n && values.contains n := by
    refine Segments.groupsLeftOut_of_occurrences hgroups fun o ho hoptional => ?_
    have hmem := Segments.mem_optionalNames hrepeat ho hoptional
    have hnot := List.any_eq_false.1 hwanted o.capture.name hmem
    simp [hnot]
  rw [Segments.fillTemplate_template values wanted _ hout, Pattern.generate]

/-- The path of a route is that of its pattern, with or without the template. -/
theorem pathOf_of_template {l : Linker σ} {r : Route σ} (h : r.TemplateSound) (optimize : Bool)
    (explicit : Params) :
    Linker.pathOf { l with optimize } r explicit =
      Linker.pathOf { l with optimize := false } r explicit := by
  rcases h with hnone | ⟨hsome, hgroups, hrepeat⟩
  · simp only [pathOf, hnone]
  · simp only [pathOf, hsome]
    cases hwanted : r.pattern.optionalNames.any (r.isWanted explicit) with
    | true => simp
    | false =>
        simp only [fillTemplate_of_not_wanted _ hgroups hrepeat hwanted]
        simp

/-- A selected route stands in the table. -/
theorem mem_of_select {l : Linker σ} {target : LinkTarget} {source : LinkValues} {r : Route σ}
    {explicit : Params} (h : l.select target source = .ok (r, explicit)) :
    r ∈ l.table.routes := by
  unfold select at h
  split at h
  · split at h
    · next hroute =>
        cases h
        exact Table.mem_of_route?_eq_some hroute
    · simp at h
  · split at h
    · simp at h
    · split at h
      · next hfind =>
          cases h
          exact List.mem_of_find?_eq_some hfind
      · simp at h

/-- For a drawn table the optimized linker and the general one answer alike: the same URL, or the
same error with all that it carries. -/
theorem url_optimize_irrelevant {entries : Entries σ} {settings : Settings} {t : Table σ}
    (hdraw : Table.draw entries settings = .ok t) (defaults : UrlDefaults) (recalled : Params)
    (target : LinkTarget) (source : LinkValues) (o : LinkOptions) :
    Linker.url { table := t, defaults, optimize := true, recalled } target source o =
      Linker.url { table := t, defaults, optimize := false, recalled } target source o := by
  have hsound : ∀ r ∈ t.routes, r.TemplateSound :=
    Table.forall_routes_of_draw (fun _ _ _ _ => Route.templateSound_of_build) hdraw
  have hpath (explicit : Params) (r : Route σ) (hr : r ∈ t.routes) :=
    pathOf_of_template (l := { table := t, defaults, optimize := false, recalled })
      (hsound r hr) true explicit
  -- Only the path depends on the switch; the route is selected without it.
  unfold url
  cases source.unfiltered? with
  | some keys => rfl
  | none =>
      have hselect : Linker.select { table := t, defaults, optimize := true, recalled } target
          source = Linker.select { table := t, defaults, optimize := false, recalled } target
          source := rfl
      simp only [hselect]
      cases hs : Linker.select { table := t, defaults, optimize := false, recalled } target
          source with
      | error e => rfl
      | ok found =>
          obtain ⟨r, explicit⟩ := found
          have hr : r ∈ t.routes := mem_of_select hs
          simp only [bind, Except.bind]
          rw [hpath explicit r hr]
          rfl

/-- A post, perhaps one of its pages, perhaps one line of the page. -/
def pagedPosts : Entries Unit :=
  .scope { path := some "/blog" }
    (.route { path := "/posts/:id(/:page(/:line))", name := some "post",
              target := some "posts#show" } .done) .done

theorem url_optimize_irrelevant_pagedPosts :
    ∃ t, Table.draw pagedPosts {} = .ok t ∧
      Linker.url { table := t, defaults := {}, optimize := true } (.named "post")
          (.keyed (Dict.ofList [("id", "a/b"), ("line", "")])) .pathOnly =
        Linker.url { table := t, defaults := {}, optimize := false } (.named "post")
          (.keyed (Dict.ofList [("id", "a/b"), ("line", "")])) .pathOnly := by
  have hdrawn : (Table.draw pagedPosts {}).isOk = true := by decide +kernel
  obtain ⟨t, ht⟩ := exists_ok_of_isOk hdrawn
  exact ⟨t, ht, url_optimize_irrelevant ht {} .empty _ _ _⟩

end Linker

end RouteEngine
