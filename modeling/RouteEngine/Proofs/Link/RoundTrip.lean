import RouteEngine.Proofs.Link.Missing
import RouteEngine.Proofs.Pattern.PlainPath

/-!
From a name to a path and back. In a table with a single plain route, the path that is made for
its name is recognized as a request for it, with the values that the path was made from. The one
thing that gets in between is the canonical form of requests, which drops an escaped slash at the
end of a path; `recognize_path` leaves that case out, and `recognize_path_of_final_slash` shows
that it has to.
-/

namespace RouteEngine

open Outcome

variable {σ : Type}

/-- A named route for `GET` requests along a plain path, with nothing else asked of them. -/
structure Route.IsPlain (r : Route σ) (name : String) (parts : List Part) : Prop where
  name_eq : r.name = some name
  verbs_eq : r.verbs = .only [Method.get]
  path : Pattern.IsPlainPath r.path.toList parts
  constraints_eq : r.constraints = []
  requirements_eq : r.pattern.requirements = .empty

/-! ### Making the path -/

namespace Route

variable {r : Route σ} {explicit recalled : Params}

theorem rejectedNames_eq_nil (h : r.pattern.requirements = .empty) (values : Params) :
    r.rejectedNames values = [] := by
  refine rejectedNames_eq_nil_iff.2 fun n _ v _ whole hwhole => ?_
  rw [Pattern.requirement?, h, Dict.get?_empty] at hwhole
  cases hwhole

/-- The caller's values come first, as long as they are not empty. -/
theorem get?_mergedValues {n v : String} (hn : explicit.get? n = some v) (hv : v ≠ "") :
    (r.mergedValues explicit recalled).get? n = some v := by
  rw [get?_mergedValues_eq, valueOf_eq_some, sourceOf, hn]
  exact ⟨rfl, hv⟩

theorem contains_of_isWanted {n : String} (h : r.isWanted explicit n = true) :
    explicit.contains n = true := by
  rw [isWanted] at h
  rw [Dict.contains]
  cases hn : explicit.get? n with
  | none => simp [hn] at h
  | some v => rfl

theorem queryPairs_eq_nil (h : ∀ n ∈ explicit.keys, n ∈ r.pattern.names) :
    r.queryPairs explicit = [] := by
  rw [queryPairs, List.filter_eq_nil_iff]
  intro e he
  have hmem := h e.1 (List.mem_map_of_mem he)
  simp [hmem]

end Route

namespace Linker

/-- What stands in front of every path. -/
def script (l : Linker σ) : String :=
  String.ofList (Text.trimEnd (· = '/') (l.defaults.scriptName.getD "").toList)

/-- The path for a named route without a query. -/
theorem path_of_pathOf {l : Linker σ} {name : String} {r : Route σ} {source : LinkValues}
    {path : String} (hroute : l.table.route? name = some r) (hsource : source.unfiltered? = none)
    (hquery : r.queryPairs (source.bind r.pattern) = [])
    (hpath : l.pathOf r (source.bind r.pattern) = .ok path) :
    l.path (.named name) source = .ok (l.script ++ path) := by
  have hselect := select_named hroute source
  have hrelative : l.relative r (source.bind r.pattern) path .pathOnly =
      l.script.toList ++ path.toList := by
    simp [relative, hquery, LinkOptions.pathOnly, withTrailingSlash, anchorText, script,
      Query.encodeAll, Text.join]
  have hfinish : l.finish r (source.bind r.pattern) path .pathOnly = .ok (l.script ++ path) := by
    rw [finish, hrelative, ← String.toList_append, String.ofList_toList]
    rfl
  simp only [Linker.path, url, hsource, hselect, bind, Except.bind, hpath, hfinish]
  rfl

/-- When no value is rejected the path is what the pattern generates. -/
theorem pathOf_of_generate {l : Linker σ} {r : Route σ} {explicit : Params} {g : Generated}
    (hsound : r.TemplateSound)
    (hrejected : r.rejectedNames (r.mergedValues explicit l.recalled) = [])
    (hg : r.pattern.generate (r.mergedValues explicit l.recalled) (r.isWanted explicit) = .ok g) :
    l.pathOf r explicit = .ok g.path := by
  rw [pathOf_general hsound]
  simp only [pathOf, hrejected, hg]
  cases r.template <;> rfl

theorem pathOf_eq_ok {l : Linker σ} {r : Route σ} {explicit : Params} {g : Generated}
    (hsound : r.TemplateSound) (hrequirements : r.pattern.requirements = .empty)
    (hg : r.pattern.generate (r.mergedValues explicit l.recalled) (r.isWanted explicit) = .ok g) :
    l.pathOf r explicit = .ok g.path :=
  pathOf_of_generate hsound (Route.rejectedNames_eq_nil hrequirements _) hg

/-- The path is what the caller's values write, when they are values of the names, cover the
required ones and are not rejected. -/
theorem path_of_explicit {l : Linker σ} {r : Route σ} {name : String} {source : LinkValues}
    (hsound : r.TemplateSound) (hroute : l.table.route? name = some r)
    (hsource : source.unfiltered? = none)
    (hrejected : r.rejectedNames (r.mergedValues (source.bind r.pattern) l.recalled) = [])
    (hkeys : ∀ n ∈ (source.bind r.pattern).keys, n ∈ r.pattern.names)
    (hdirect : ∀ c ∈ r.pattern.segments.directCaptures,
      (source.bind r.pattern).contains c.name = true)
    (hvalues : ∀ n v, (source.bind r.pattern).get? n = some v → v ≠ "") :
    l.path (.named name) source = .ok (l.script ++ String.ofList
      (r.pattern.segments.filling (source.bind r.pattern)
        (r.isWanted (source.bind r.pattern))).text) := by
  have hmerged : ∀ n, (source.bind r.pattern).contains n = true →
      (r.mergedValues (source.bind r.pattern) l.recalled).get? n =
        (source.bind r.pattern).get? n := by
    intro n hn
    obtain ⟨v, hv⟩ := Option.isSome_iff_exists.1 hn
    rw [Route.get?_mergedValues hv (hvalues n v hv), hv]
  have hemit : r.pattern.generate (r.mergedValues (source.bind r.pattern) l.recalled)
      (r.isWanted (source.bind r.pattern)) =
        r.pattern.generate (source.bind r.pattern) (r.isWanted (source.bind r.pattern)) := by
    rw [Pattern.generate, Pattern.generate, Segments.emit_congr
      (fun c hc => hmerged _ (hdirect c hc))
      fun n hn => hmerged n (Route.contains_of_isWanted hn)]
  exact path_of_pathOf hroute hsource (Route.queryPairs_eq_nil hkeys)
    (pathOf_of_generate hsound hrejected (hemit.trans (Pattern.generate_eq_ok _ hdirect)))

end Linker

/-! ### Recognizing it -/

namespace Table

/-- A single route that takes any request for `GET` along its path takes this one. -/
theorem recognize_of_matchPath {t : Table σ} {r : Route σ} {request : Request} {values : Params}
    (hroutes : t.routes = [r]) (hverbs : r.verbs = .only [Method.get])
    (hconstraints : r.constraints = []) (hmethod : request.method = Method.get)
    (hpath : checkedPath request = .ok request.path)
    (hmatch : r.pattern.matchPath request.path = some ⟨values, ""⟩) (s : σ) :
    t.recognize request s = (.ok (.matched ⟨r, r.paramsFor values, ""⟩), s) := by
  have haccepts : r.verbs.accepts request.method = true := by
    rw [hverbs, hmethod]
    decide
  have hattempt : r.attempt t.tldLength request request.path s =
      (.accepted ⟨r, r.paramsFor values, ""⟩, s) := by
    simp only [Route.attempt, hmatch, haccepts, if_true, Route.checkConstraints, hconstraints,
      Route.firstFailure]
  simp only [recognize, hpath, hroutes, recognizeFrom, hattempt]

theorem checkedPath_eq_ok {request : Request}
    (hpath : Escape.normalizePath request.path = request.path)
    (hunescape : (Escape.unescape request.path).isSome = true) :
    checkedPath request = .ok request.path := by
  obtain ⟨text, htext⟩ := Option.isSome_iff_exists.1 hunescape
  simp only [checkedPath, hpath, htext]

end Table

namespace Linker

/-- The path that is made for the one route of a drawn table, a plain one, leads back to it with
all the values that it was made from, unless it ends in an escaped slash. -/
theorem recognize_path {entries : Entries σ} {settings : Settings} {r : Route σ} {name : String}
    {parts : List Part} (l : Linker σ) (source : LinkValues)
    (hdraw : Table.draw entries settings = .ok l.table) (hroutes : l.table.routes = [r])
    (hr : r.IsPlain name parts) (hsource : source.unfiltered? = none)
    (hfits : Part.Fits parts (source.bind r.pattern)) :
    ∃ path, l.path (.named name) source = .ok (l.script ++ path) ∧
      (¬ "%2F".toList <:+ path.toList → ∀ (request : Request) (s : σ),
        request.method = Method.get → request.path = path →
          ∃ m, l.table.recognize request s = (.ok (.matched m), s) ∧ m.route = r ∧
            m.remaining = "" ∧
            ∀ n v, (source.bind r.pattern).get? n = some v → m.params.get? n = some v) := by
  have hmem : r ∈ l.table.routes := by simp [hroutes]
  have hroute : l.table.route? name = some r := by simp [Table.route?, hroutes, hr.name_eq]
  have hsound : r.TemplateSound :=
    Table.forall_routes_of_draw (fun _ _ _ _ => Route.templateSound_of_build) hdraw r hmem
  obtain ⟨text, requirements, anchored, hcompiled⟩ :=
    Table.forall_routes_of_draw (fun _ _ _ _ => Declaration.pattern_of_build) hdraw r hmem
  have hcompile := Pattern.compile_empty_of_compile hcompiled hr.requirements_eq
  -- Defaults and recalled values never get in the way of what the caller gives.
  have hmerged : ∀ n, (source.bind r.pattern).contains n = true →
      (r.mergedValues (source.bind r.pattern) l.recalled).get? n =
        (source.bind r.pattern).get? n := by
    intro n hn
    obtain ⟨v, hv⟩ := Option.isSome_iff_exists.1 hn
    rw [Route.get?_mergedValues hv (hfits.suits n v hv).1, hv]
  obtain ⟨g, hg, hmatch, hcanonical⟩ := Pattern.matchPath_plainPath hr.path hcompile hfits hmerged
    fun _ => Route.contains_of_isWanted
  have hquery : r.queryPairs (source.bind r.pattern) = [] :=
    Route.queryPairs_eq_nil fun n hn =>
      Pattern.mem_names_of_mem hr.path hcompile ((hfits.keys n).1 hn)
  refine ⟨g.path, path_of_pathOf hroute hsource hquery (pathOf_eq_ok hsound hr.requirements_eq hg),
    fun hend request s hmethod hpath => ?_⟩
  obtain ⟨hnormal, hunescape⟩ := hcanonical hend
  rw [← hpath] at hnormal hunescape hmatch
  have hchecked := Table.checkedPath_eq_ok hnormal hunescape
  refine ⟨_, Table.recognize_of_matchPath hroutes hr.verbs_eq hr.constraints_eq hmethod hchecked
    hmatch s, rfl, rfl, fun n v hv => ?_⟩
  simp only [Route.paramsFor, Dict.get?_override, hv, Option.some_or]

/-- Files with their parts. -/
def files : Entries Unit :=
  .route { path := "/files/:id/:part", name := some "file", target := some "files#show" } .done

def fileParts : List Part := [.literal "files", .param "id", .param "part"]

theorem files_drawn :
    ∃ t r, Table.draw files {} = .ok t ∧ t.routes = [r] ∧ r.IsPlain "file" fileParts := by
  have hcheck : ((Table.draw files {}).toOption.bind fun t =>
      some (t.routes.map fun r => (r.name, r.verbs, r.path, r.constraints.length,
        r.pattern.requirements.entries.length))) =
          some [(some "file", .only [Method.get], "/files/:id/:part(.:format)", 0, 0)] := by
    decide +kernel
  have hdrawn : (Table.draw files {}).isOk = true := by decide +kernel
  obtain ⟨t, ht⟩ := exists_ok_of_isOk hdrawn
  have hrows := eq_some_of_bind_toOption ht hcheck
  have hroutes := Option.some.inj hrows
  obtain ⟨r, hr, hfacts⟩ := List.map_eq_singleton_iff.1 hroutes
  simp only [Prod.mk.injEq] at hfacts
  obtain ⟨hname, hverbs, hpath, hconstraints, hrequirements⟩ := hfacts
  have hproper : ∀ part ∈ fileParts, part.IsProper := by decide +kernel
  have htext : r.path.toList = Declaration.appendFormat (Part.pathText fileParts) .optional := by
    rw [hpath]
    decide +kernel
  exact ⟨t, r, ht, hr, hname, hverbs, ⟨hproper, .optional, by decide, htext⟩,
    List.length_eq_zero_iff.1 hconstraints,
    Dict.ext_entries (List.length_eq_zero_iff.1 hrequirements)⟩

theorem fits_fileParts {id part : String} (hid : id ≠ "" ∧ '.' ∉ id.toList)
    (hpart : part ≠ "" ∧ '.' ∉ part.toList) :
    Part.Fits fileParts (.ofList [("id", id), ("part", part)]) := by
  have hget : ∀ n, (Dict.ofList [("id", id), ("part", part)]).get? n =
      if "part" = n then some part else if "id" = n then some id else none := by
    intro n
    simp [Dict.ofList, Dict.insertAll]
  refine ⟨fun n => ?_, fun n v hv => ?_⟩
  · rw [Dict.mem_keys, Dict.contains, hget]
    by_cases hpart : "part" = n
    · simp [← hpart, fileParts]
    · by_cases hid : "id" = n
      · simp [← hid, fileParts]
      · simp [hpart, hid, fileParts, Ne.symm hpart, Ne.symm hid]
  · rw [hget] at hv
    split at hv
    · cases hv
      exact hpart
    · split at hv
      · cases hv
        exact hid
      · simp at hv

theorem recognize_path_files :
    ∃ (t : Table Unit) (m : RouteMatch Unit), Table.draw files {} = .ok t ∧
      Linker.path (.ofTable t {}) (.named "file")
        (.keyed (.ofList [("id", "a/b ?#%"), ("part", "é//x")])) =
          .ok "/files/a%2Fb%20%3F%23%25/%C3%A9%2F%2Fx" ∧
      t.recognize { path := "/files/a%2Fb%20%3F%23%25/%C3%A9%2F%2Fx" } () =
        (.ok (.matched m), ()) ∧
      m.params.get? "id" = some "a/b ?#%" ∧ m.params.get? "part" = some "é//x" := by
  obtain ⟨t, r, hdraw, hroutes, hr⟩ := files_drawn
  have hfits : Part.Fits fileParts (.ofList [("id", "a/b ?#%"), ("part", "é//x")]) :=
    fits_fileParts (by decide +kernel) (by decide +kernel)
  obtain ⟨path, hpath, hrecognize⟩ := recognize_path (.ofTable t {})
    (.keyed (.ofList [("id", "a/b ?#%"), ("part", "é//x")])) hdraw hroutes hr rfl hfits
  have hscript : (ofTable t {}).script ++ path = path := by
    rw [script, ofTable]
    simp [Text.trimEnd]
  rw [hscript] at hpath
  have hmade : ((Table.draw files {}).toOption.bind fun t =>
      (Linker.path (.ofTable t {}) (.named "file")
        (.keyed (.ofList [("id", "a/b ?#%"), ("part", "é//x")]))).toOption) =
          some "/files/a%2Fb%20%3F%23%25/%C3%A9%2F%2Fx" := by
    decide +kernel
  have heq := toOption_eq_some.1 (eq_some_of_bind_toOption hdraw hmade)
  rw [hpath] at heq
  cases heq
  obtain ⟨m, hm, -, -, hvalues⟩ := hrecognize (by decide +kernel) { path := _ } () rfl rfl
  have hid : (Dict.ofList [("id", "a/b ?#%"), ("part", "é//x")]).get? "id" = some "a/b ?#%" := by
    decide +kernel
  have hpart : (Dict.ofList [("id", "a/b ?#%"), ("part", "é//x")]).get? "part" = some "é//x" := by
    decide +kernel
  exact ⟨t, m, hdraw, hpath, hm, hvalues _ _ hid, hvalues _ _ hpart⟩

/-- An escaped slash at the end of the path does not survive: the canonical form of the request
drops it. -/
theorem recognize_path_of_final_slash :
    ∃ (t : Table Unit) (r : Route Unit) (m : RouteMatch Unit), Table.draw files {} = .ok t ∧
      t.routes = [r] ∧ r.IsPlain "file" fileParts ∧
      Part.Fits fileParts (.ofList [("id", "1"), ("part", "x/")]) ∧
      Linker.path (.ofTable t {}) (.named "file")
        (.keyed (.ofList [("id", "1"), ("part", "x/")])) = .ok "/files/1/x%2F" ∧
      (t.recognize { path := "/files/1/x%2F" } ()).1 = .ok (.matched m) ∧
      m.params.get? "part" = some "x" := by
  obtain ⟨t, r, hdraw, hroutes, hr⟩ := files_drawn
  have hmade : ((Table.draw files {}).toOption.bind fun t =>
      (Linker.path (.ofTable t {}) (.named "file")
        (.keyed (.ofList [("id", "1"), ("part", "x/")]))).toOption) = some "/files/1/x%2F" := by
    decide +kernel
  have hfound : ((Table.draw files {}).toOption.bind fun t =>
      (t.recognize { path := "/files/1/x%2F" } ()).1.toOption.bind fun found =>
        found.match?.map fun m => m.params.get? "part") = some (some "x") := by
    decide +kernel
  obtain ⟨found, hrecognize, hmatch⟩ :=
    Option.bind_eq_some_iff.1 (eq_some_of_bind_toOption hdraw hfound)
  obtain ⟨m, hm, hpart⟩ := Option.map_eq_some_iff.1 hmatch
  rw [Recognition.match?_eq_some.1 hm] at hrecognize
  exact ⟨t, r, m, hdraw, hroutes, hr, fits_fileParts (by decide +kernel) (by decide +kernel),
    toOption_eq_some.1 (eq_some_of_bind_toOption hdraw hmade), toOption_eq_some.1 hrecognize,
    hpart⟩

end Linker

end RouteEngine
