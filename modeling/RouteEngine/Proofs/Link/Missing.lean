import RouteEngine.Proofs.Link.Template
import RouteEngine.Proofs.Pattern.Filling
import RouteEngine.Proofs.Table.Recognition

/-!
What is missing when a path cannot be made. A key has one value, or none, by the order of the
sources (`valueOf`), and the merged dictionary leads to it. Only captures outside groups can be
missed, since a group is entered only when all of its own captures have values: `missing_emit_eq`
says it of the walk through the tree, whose text and choices do not matter. So making a path
fails in two ways, for a value that its expression does not take and for a required name without a
value (`pathOf_isOk_iff`), and setting the names that are reported repairs the second
(`path_missing`), although it may bring in groups that were left out before.
-/

namespace RouteEngine

open Outcome

variable {σ : Type}

/-! ### The names that a tree misses -/

theorem Segments.requiredNames_capture (c : Capture) (next : Segments) :
    (capture c next).requiredNames = c.name :: next.requiredNames := rfl

/-- The names that are missed are those outside groups without a value, in the order of the text. -/
theorem Segments.missing_emit_eq (values : Params) (wanted : String → Bool) (s : Segments) :
    (s.emit values wanted).missing = s.requiredNames.filter fun n => !values.contains n := by
  induction s with
  | done => rfl
  | literal text next ih => exact ih
  | capture c next ih =>
      rw [emit_capture, Emitted.append, ih, requiredNames_capture, List.filter_cons]
      cases hget : values.get? c.name <;> simp [Capture.emitted, Dict.contains, hget]
  | group inner next _ ih =>
      rw [emit, Emitted.append, ih]
      split
      · next hincludable =>
          -- The group is entered because nothing outside its own groups is missing in it.
          rw [missing_emit (contains_of_includable hincludable)]
          rfl
      · rfl

namespace Pattern

variable {p : Pattern} {values : Params} {wanted : String → Bool}

/-- The required names without a value, each once. -/
def missingNames (p : Pattern) (values : Params) : List String :=
  Names.ascending (p.requiredNames.filter fun n => !values.contains n)

theorem mem_missingNames {n : String} :
    n ∈ p.missingNames values ↔ n ∈ p.requiredNames ∧ values.get? n = none := by
  simp [missingNames, Names.mem_ascending, Dict.contains]

theorem missingNames_eq_nil :
    p.missingNames values = [] ↔ ∀ n ∈ p.requiredNames, values.get? n ≠ none := by
  simp only [List.eq_nil_iff_forall_not_mem, mem_missingNames, not_and, ne_eq]

theorem missing_emit_eq_nil :
    (p.segments.emit values wanted).missing = [] ↔ p.missingNames values = [] := by
  rw [Segments.missing_emit_eq, missingNames_eq_nil, List.filter_eq_nil_iff, requiredNames]
  simp [Dict.contains]

theorem generate_of_missing (h : p.missingNames values ≠ []) :
    p.generate values wanted = .error (p.missingNames values) := by
  have hmissing : (p.segments.emit values wanted).missing.isEmpty = false := by
    rw [List.isEmpty_eq_false_iff, ne_eq, missing_emit_eq_nil]
    exact h
  rw [generate, Emitted.result, hmissing, Segments.missing_emit_eq]
  rfl

theorem exists_generate (wanted : String → Bool) (h : p.missingNames values = []) :
    ∃ g, p.generate values wanted = .ok g := by
  have hmissing : (p.segments.emit values wanted).missing.isEmpty = true := by
    rw [List.isEmpty_iff, missing_emit_eq_nil]
    exact h
  rw [generate, Emitted.result, hmissing]
  exact ⟨_, rfl⟩

/-- The expression asked for by the name, if there is one, takes the value. -/
def Meets (p : Pattern) (name value : String) : Prop :=
  ∀ whole ∈ p.requirement? name, whole.matchesValue value = true

instance (p : Pattern) (name value : String) : Decidable (p.Meets name value) :=
  inferInstanceAs (Decidable (∀ whole ∈ p.requirement? name, _))

end Pattern

/-! ### The value of a key -/

namespace Route

variable {r : Route σ} {explicit recalled : Params}

/-- What the sources have for a key, in their order: the caller's value, else the default of the
route, else, for a key that the path requires, the recalled one. It may be empty. -/
def sourceOf (r : Route σ) (explicit recalled : Params) (key : String) : Option String :=
  ((explicit.get? key).or (r.defaults.get? key)).or
    (if key ∈ r.pattern.requiredNames then recalled.get? key else none)

/-- The value of a key. An empty value counts as none, whatever the sources after it have. -/
def valueOf (r : Route σ) (explicit recalled : Params) (key : String) : Option String :=
  (r.sourceOf explicit recalled key).filter (· ≠ "")

/-- What the sources have comes from one of them, and the caller has nothing if it is not
the caller's. -/
theorem sourceOf_eq_some {key v : String} (h : r.sourceOf explicit recalled key = some v) :
    explicit.get? key = some v ∨
      (explicit.get? key = none ∧ r.defaults.get? key = some v) ∨
      (explicit.get? key = none ∧ recalled.get? key = some v) := by
  simp only [sourceOf, Option.or_eq_some_iff, Option.or_eq_none_iff] at h
  rcases h with (hgiven | ⟨hgiven, hdefault⟩) | ⟨⟨hgiven, -⟩, hrecalled⟩
  · exact .inl hgiven
  · exact .inr (.inl ⟨hgiven, hdefault⟩)
  · split at hrecalled
    · exact .inr (.inr ⟨hgiven, hrecalled⟩)
    · cases hrecalled

theorem get?_mergedValues_eq (key : String) :
    (r.mergedValues explicit recalled).get? key = r.valueOf explicit recalled key := by
  have hneeded : (recalled.filter fun k _ => r.requiredKeys.contains k).get? key =
      if key ∈ r.pattern.requiredNames then recalled.get? key else none := by
    rw [Dict.get?_filter, requiredKeys, Pattern.requiredKeys]
    by_cases hkey : key ∈ r.pattern.requiredNames <;>
      cases recalled.get? key <;> simp [hkey, Names.mem_distinct]
  rw [mergedValues, Dict.get?_filter, Dict.get?_orElse, Dict.get?_orElse, hneeded]
  rfl

theorem valueOf_eq_some {key v : String} :
    r.valueOf explicit recalled key = some v ↔
      r.sourceOf explicit recalled key = some v ∧ v ≠ "" := by
  simp [valueOf, Option.filter_eq_some_iff]

/-- What the caller sets comes before everything else. -/
theorem valueOf_override_of_some {repair : Params} {key v : String}
    (hv : repair.get? key = some v) (hne : v ≠ "") :
    r.valueOf (explicit.override repair) recalled key = some v := by
  rw [valueOf_eq_some, sourceOf, Dict.get?_override, hv]
  exact ⟨rfl, hne⟩

theorem valueOf_override_of_none {repair : Params} {key : String}
    (h : repair.get? key = none) :
    r.valueOf (explicit.override repair) recalled key = r.valueOf explicit recalled key := by
  rw [valueOf, sourceOf, Dict.get?_override, h, Option.none_or]
  rfl

theorem rejectedNames_eq_nil_iff {values : Params} :
    r.rejectedNames values = [] ↔
      ∀ n ∈ r.pattern.names, ∀ v ∈ values.get? n, r.pattern.Meets n v := by
  rw [rejectedNames, List.filter_eq_nil_iff]
  refine forall₂_congr fun n _ => ?_
  cases values.get? n with
  | none => simp
  | some v => cases hwhole : r.pattern.requirement? n <;> simp [Pattern.Meets, hwhole]

end Route

/-! ### Making a path -/

namespace Linker

variable {l : Linker σ} {r : Route σ} {explicit : Params}

/-- A sound template fails, and succeeds, as the pattern does. -/
theorem pathOf_general (hsound : r.TemplateSound) :
    l.pathOf r explicit = Linker.pathOf { l with optimize := false } r explicit :=
  pathOf_of_template hsound l.optimize explicit

theorem pathOf_of_rejected
    (h : r.rejectedNames (r.mergedValues explicit l.recalled) ≠ []) :
    ∃ e, l.pathOf r explicit = .error e := by
  simp only [pathOf, List.isEmpty_eq_false_iff.2 h, Bool.not_false, if_true]
  exact ⟨_, rfl⟩

theorem pathOf_of_missing (hsound : r.TemplateSound)
    (hrejected : r.rejectedNames (r.mergedValues explicit l.recalled) = [])
    (h : r.pattern.missingNames (r.mergedValues explicit l.recalled) ≠ []) :
    l.pathOf r explicit =
      .error { r.failure (r.mergedValues explicit l.recalled) .missingKeys with
        missing := r.pattern.missingNames (r.mergedValues explicit l.recalled) } := by
  rw [pathOf_general hsound]
  simp only [pathOf, hrejected, Pattern.generate_of_missing h]
  cases r.template <;> rfl

theorem exists_pathOf (hsound : r.TemplateSound)
    (hrejected : r.rejectedNames (r.mergedValues explicit l.recalled) = [])
    (h : r.pattern.missingNames (r.mergedValues explicit l.recalled) = []) :
    ∃ path, l.pathOf r explicit = .ok path := by
  obtain ⟨g, hg⟩ := Pattern.exists_generate (r.isWanted explicit) h
  rw [pathOf_general hsound]
  simp only [pathOf, hrejected, hg]
  cases r.template <;> exact ⟨_, rfl⟩

/-- The path of a route can be made exactly when each of its names takes its value and each of
its required names has one. -/
theorem pathOf_isOk_iff (hsound : r.TemplateSound) :
    (∃ path, l.pathOf r explicit = .ok path) ↔
      (∀ n ∈ r.pattern.names, ∀ v ∈ r.valueOf explicit l.recalled n, r.pattern.Meets n v) ∧
        ∀ n ∈ r.pattern.requiredNames, r.valueOf explicit l.recalled n ≠ none := by
  simp only [← Route.get?_mergedValues_eq]
  rw [← Route.rejectedNames_eq_nil_iff, ← Pattern.missingNames_eq_nil]
  constructor
  · rintro ⟨path, hpath⟩
    by_cases hrejected : r.rejectedNames (r.mergedValues explicit l.recalled) = []
    · refine ⟨hrejected, Classical.byContradiction fun hmissing => ?_⟩
      rw [pathOf_of_missing hsound hrejected hmissing] at hpath
      cases hpath
    · obtain ⟨e, he⟩ := pathOf_of_rejected hrejected
      rw [he] at hpath
      cases hpath
  · rintro ⟨hrejected, hmissing⟩
    exact exists_pathOf hsound hrejected hmissing

/-- The failed generation that an answer reports. -/
def failure? : Except RoutingError String → Option GenerationError
  | .error (.generation e) => some e
  | _ => none

theorem failure?_eq_some {answer : Except RoutingError String} {e : GenerationError} :
    failure? answer = some e ↔ answer = .error (.generation e) := by
  rcases answer with (_ | _) | _ <;> simp [failure?]

/-- Once a route is selected only its path can fail, unless a host is asked for. -/
theorem url_of_select {target : LinkTarget} {source : LinkValues} {o : LinkOptions}
    (honly : o.onlyPath = true) (hsource : source.unfiltered? = none)
    (hselect : l.select target source = .ok (r, explicit)) :
    l.url target source o = ((l.pathOf r explicit).map fun path =>
      String.ofList (l.relative r explicit path o)).mapError .generation := by
  simp only [url, hsource, hselect, bind, Except.bind, finish, honly, if_true]
  cases l.pathOf r explicit <;> rfl

theorem path_of_select {target : LinkTarget} {source : LinkValues}
    (hsource : source.unfiltered? = none) (hselect : l.select target source = .ok (r, explicit)) :
    l.path target source = ((l.pathOf r explicit).map fun path =>
      String.ofList (l.relative r explicit path .pathOnly)).mapError .generation :=
  url_of_select rfl hsource hselect

theorem path_isOk_iff {target : LinkTarget} {source : LinkValues}
    (hsource : source.unfiltered? = none) (hselect : l.select target source = .ok (r, explicit)) :
    (∃ path, l.path target source = .ok path) ↔ ∃ path, l.pathOf r explicit = .ok path := by
  rw [path_of_select hsource hselect]
  simp only [mapError_eq_ok, map_eq_ok]
  constructor
  · rintro ⟨_, path, hpath, -⟩
    exact ⟨path, hpath⟩
  · rintro ⟨path, hpath⟩
    exact ⟨_, path, hpath, rfl⟩

theorem select_named {name : String} (hroute : l.table.route? name = some r)
    (source : LinkValues) :
    l.select (.named name) source = .ok (r, source.bind r.pattern) := by
  simp only [select, hroute]

/-- Setting the required names without a value, to values that their expressions take, leaves
nothing in the way of the path. Groups that were left out may be entered now; whatever their
captures are, they have values. -/
theorem exists_pathOf_override (hsound : r.TemplateSound) {repair : Params}
    (hmeets : ∀ n ∈ r.pattern.names, ∀ v ∈ r.valueOf explicit l.recalled n, r.pattern.Meets n v)
    (hkeys : ∀ n ∈ r.pattern.requiredNames, r.valueOf explicit l.recalled n = none →
      n ∈ repair.keys)
    (hrepair : ∀ n v, repair.get? n = some v → v ≠ "" ∧ r.pattern.Meets n v) :
    ∃ path, l.pathOf r (explicit.override repair) = .ok path := by
  refine (pathOf_isOk_iff hsound).2 ⟨fun n hn v hv => ?_, fun n hn hnone => ?_⟩
  · cases hset : repair.get? n with
    | none =>
        rw [Route.valueOf_override_of_none hset] at hv
        exact hmeets n hn v hv
    | some w =>
        obtain ⟨hne, hw⟩ := hrepair n w hset
        rw [Route.valueOf_override_of_some hset hne] at hv
        cases hv
        exact hw
  · cases hset : repair.get? n with
    | none =>
        rw [Route.valueOf_override_of_none hset] at hnone
        have hcontains := Dict.mem_keys.1 (hkeys n hn hnone)
        rw [Dict.contains, hset] at hcontains
        cases hcontains
    | some w =>
        rw [Route.valueOf_override_of_some hset (hrepair n w hset).1] at hnone
        cases hnone

/-- When no value is rejected, the path for a name fails exactly for the required names without a
value, with and without templates. The error lists them, and the caller repairs the call by setting
them and nothing else. -/
theorem path_missing {entries : Entries σ} {settings : Settings} {name : String}
    (source : LinkValues) (hdraw : Table.draw entries settings = .ok l.table)
    (hroute : l.table.route? name = some r) (hsource : source.unfiltered? = none)
    (hmeets : ∀ n ∈ r.pattern.names, ∀ v ∈ r.valueOf (source.bind r.pattern) l.recalled n,
      r.pattern.Meets n v) :
    ((∃ e, l.path (.named name) source = .error e) ↔
      ∃ n ∈ r.pattern.requiredNames, r.valueOf (source.bind r.pattern) l.recalled n = none) ∧
    ∀ e, l.path (.named name) source = .error e → ∃ missing,
      e = .generation { r.failure (r.mergedValues (source.bind r.pattern) l.recalled)
        .missingKeys with missing } ∧
      missing.Pairwise (· < ·) ∧
      (∀ n, n ∈ missing ↔
        n ∈ r.pattern.requiredNames ∧ r.valueOf (source.bind r.pattern) l.recalled n = none) ∧
      ∀ (repair : Params) (repaired : LinkValues), (∀ n, n ∈ repair.keys ↔ n ∈ missing) →
        (∀ n v, repair.get? n = some v → v ≠ "" ∧ r.pattern.Meets n v) →
        repaired.unfiltered? = none →
        repaired.bind r.pattern = (source.bind r.pattern).override repair →
        ∃ path, l.path (.named name) repaired = .ok path := by
  have hsound : r.TemplateSound :=
    Table.forall_routes_of_draw (fun _ _ _ _ => Route.templateSound_of_build) hdraw r
      (Table.mem_of_route?_eq_some hroute)
  have hselect := select_named hroute source
  have hrejected : r.rejectedNames (r.mergedValues (source.bind r.pattern) l.recalled) = [] := by
    simpa only [Route.rejectedNames_eq_nil_iff, Route.get?_mergedValues_eq] using hmeets
  have hmem : ∀ n, n ∈ r.pattern.missingNames (r.mergedValues (source.bind r.pattern) l.recalled) ↔
      n ∈ r.pattern.requiredNames ∧ r.valueOf (source.bind r.pattern) l.recalled n = none := by
    intro n
    rw [Pattern.mem_missingNames, Route.get?_mergedValues_eq]
  by_cases hmissing :
      r.pattern.missingNames (r.mergedValues (source.bind r.pattern) l.recalled) = []
  · obtain ⟨path, hpath⟩ :=
      (path_isOk_iff hsource hselect).2 (exists_pathOf hsound hrejected hmissing)
    refine ⟨⟨fun ⟨e, he⟩ => ?_, fun ⟨n, hn⟩ => ?_⟩, fun e he => ?_⟩
    · rw [hpath] at he
      cases he
    · have hn := (hmem n).2 hn
      rw [hmissing] at hn
      cases hn
    · rw [hpath] at he
      cases he
  · have herror := path_of_select hsource hselect
    rw [pathOf_of_missing hsound hrejected hmissing] at herror
    obtain ⟨n, hn⟩ := List.exists_mem_of_ne_nil _ hmissing
    refine ⟨⟨fun _ => ⟨n, (hmem n).1 hn⟩, fun _ => ⟨_, herror⟩⟩, fun e he => ?_⟩
    rw [herror] at he
    cases he
    refine ⟨_, rfl, Names.pairwise_ascending _, hmem, ?_⟩
    intro repair repaired hkeys hrepair hrepaired hbind
    have hselect' := select_named hroute repaired
    rw [hbind] at hselect'
    refine (path_isOk_iff hrepaired hselect').2 ?_
    exact exists_pathOf_override hsound hmeets
      (fun n hn hnone => (hkeys n).2 ((hmem n).2 ⟨hn, hnone⟩)) hrepair

/-- A numbered post of a user, perhaps with its number again for a copy of it. -/
def copies : Entries Unit :=
  .route { path := "/users/:user/posts/:id(/copy/:id)", name := some "post"
           target := some "posts#show", requirements := [("id", "[0-9]+")] } .done

/-- Asks for posts while a page of the fifth user is shown. -/
def fifthUser (t : Table Unit) : Linker Unit :=
  { table := t, defaults := {}, optimize := true
    recalled := .ofList [("id", "9"), ("user", "5")] }

/-- An empty number hides the recalled one. The number that repairs the call stands in the group
as well. -/
theorem path_missing_copies :
    ∃ (t : Table Unit) (e : GenerationError) (path : String), Table.draw copies {} = .ok t ∧
      (fifthUser t).path (.named "post") (.keyed (.ofList [("id", "")])) =
        .error (.generation e) ∧ e.missing = ["id"] ∧
      (fifthUser t).path (.named "post") (.keyed (.ofList [("id", "7")])) = .ok path := by
  have hcheck : ((Table.draw copies {}).toOption.bind fun t => (t.route? "post").filter fun r =>
      decide (∀ n ∈ r.pattern.names, ∀ v ∈ r.valueOf (.ofList [("id", "")])
        (fifthUser t).recalled n, r.pattern.Meets n v) &&
      decide (r.pattern.Meets "id" "7")).isSome = true := by
    decide +kernel
  have hfailed : ((Table.draw copies {}).toOption.bind fun t =>
      (failure? ((fifthUser t).path (.named "post") (.keyed (.ofList [("id", "")])))).map
        (·.missing)) = some ["id"] := by
    decide +kernel
  obtain ⟨r, hr⟩ := Option.isSome_iff_exists.1 hcheck
  obtain ⟨t, hdraw, hr⟩ := Option.bind_eq_some_iff.1 hr
  have hdraw := toOption_eq_some.1 hdraw
  obtain ⟨hroute, hr⟩ := Option.filter_eq_some_iff.1 hr
  obtain ⟨hmeets, hseven⟩ := Bool.and_eq_true_iff.1 hr
  obtain ⟨e, hfailure, hmissing⟩ :=
    Option.map_eq_some_iff.1 (eq_some_of_bind_toOption hdraw hfailed)
  have hfailure := failure?_eq_some.1 hfailure
  obtain ⟨-, hrepairs⟩ := path_missing (l := fifthUser t) (.keyed (.ofList [("id", "")]))
    hdraw hroute rfl (of_decide_eq_true hmeets)
  obtain ⟨missing, heq, -, -, hrepair⟩ := hrepairs _ hfailure
  cases heq
  obtain rfl : missing = ["id"] := hmissing
  have hkeys : (Dict.ofList [("id", "7")]).keys = ["id"] := by decide +kernel
  have hvalues : ∀ n v, (Dict.ofList [("id", "7")]).get? n = some v →
      v ≠ "" ∧ r.pattern.Meets n v := by
    intro n v hv
    obtain ⟨rfl, rfl⟩ := Prod.mk.inj (List.mem_singleton.1 (Dict.mem_of_get?_ofList hv))
    exact ⟨by decide, of_decide_eq_true hseven⟩
  have hset : Dict.ofList [("id", "7")] =
      (Dict.ofList [("id", "")]).override (Dict.ofList [("id", "7")]) := by decide +kernel
  obtain ⟨path, hpath⟩ := hrepair (.ofList [("id", "7")]) (.keyed (.ofList [("id", "7")]))
    (fun n => by rw [hkeys]) hvalues rfl hset
  exact ⟨t, _, path, hdraw, hfailure, rfl, hpath⟩

end Linker

end RouteEngine
