import RouteEngine.Proofs.Link.RoundTrip

/-!
What the current request may change about a link. Recalled values count for few keys, those that
the path requires when neither the caller nor the defaults of the route have them (`Recalls`).
`sourceOf_congr` says so for one key, and the rest follows what is read: the merged values, the
groups, which are written for the caller's values only, and the path. The query, the host and the
anchor are put around the path without a look at the recalled values. So two requests that agree
on these keys get the same answer to every link, the errors included (`url_recalled`).
-/

namespace RouteEngine

open Outcome

variable {σ : Type}

namespace Route

variable {r : Route σ} {explicit recalled recalled' : Params}

/-- The recalled value of the key counts: the path requires the key, and neither the caller nor
the defaults of the route have it. -/
def Recalls (r : Route σ) (explicit : Params) (key : String) : Prop :=
  key ∈ r.requiredKeys ∧ explicit.contains key = false ∧ r.defaults.contains key = false

instance (r : Route σ) (explicit : Params) (key : String) : Decidable (r.Recalls explicit key) :=
  inferInstanceAs (Decidable (key ∈ r.requiredKeys ∧ _))

/-- A key has the same value whatever is recalled, unless its recalled value counts. -/
theorem sourceOf_congr {key : String}
    (h : r.Recalls explicit key → recalled.get? key = recalled'.get? key) :
    r.sourceOf explicit recalled key = r.sourceOf explicit recalled' key := by
  rw [sourceOf, sourceOf]
  cases hgiven : explicit.get? key with
  | some v => rfl
  | none =>
      cases hdefault : r.defaults.get? key with
      | some v => rfl
      | none =>
          by_cases hrequired : key ∈ r.pattern.requiredNames
          · have hkey : key ∈ r.requiredKeys := Names.mem_distinct.2 hrequired
            have hrecalled := h ⟨hkey, by simp [Dict.contains, hgiven],
              by simp [Dict.contains, hdefault]⟩
            rw [if_pos hrequired, if_pos hrequired, hrecalled]
          · rw [if_neg hrequired, if_neg hrequired]

theorem get?_mergedValues_congr {key : String}
    (h : r.Recalls explicit key → recalled.get? key = recalled'.get? key) :
    (r.mergedValues explicit recalled).get? key =
      (r.mergedValues explicit recalled').get? key := by
  rw [get?_mergedValues_eq, get?_mergedValues_eq, valueOf, valueOf, sourceOf_congr h]

theorem mergedValues_congr
    (h : ∀ key, r.Recalls explicit key → recalled.get? key = recalled'.get? key) :
    r.mergedValues explicit recalled = r.mergedValues explicit recalled' :=
  Dict.ext_get? fun key => get?_mergedValues_congr (h key)

/-- What the caller wants is the caller's. -/
theorem not_recalls_of_isWanted {key : String} (h : r.isWanted explicit key = true) :
    ¬ r.Recalls explicit key := by
  rintro ⟨-, hgiven, -⟩
  rw [contains_of_isWanted h] at hgiven
  cases hgiven

/-- A group is written or left out, with the same text in it, whatever is recalled. -/
theorem emit_group_recalled (r : Route σ) (explicit recalled recalled' : Params)
    (inner : Segments) :
    (Segments.group inner .done).emit (r.mergedValues explicit recalled) (r.isWanted explicit) =
      (Segments.group inner .done).emit (r.mergedValues explicit recalled')
        (r.isWanted explicit) := by
  have hdirect : ∀ c ∈ (Segments.group inner .done).directCaptures,
      (r.mergedValues explicit recalled).get? c.name =
        (r.mergedValues explicit recalled').get? c.name := by
    simp [Segments.directCaptures]
  refine Segments.emit_congr hdirect fun key hkey => ?_
  exact get?_mergedValues_congr fun h => absurd h (not_recalls_of_isWanted hkey)

end Route

namespace Linker

variable {l : Linker σ} {r : Route σ} {name : String}

theorem pathOf_congr {explicit : Params} {recalled recalled' : Params}
    (h : ∀ key, r.Recalls explicit key → recalled.get? key = recalled'.get? key) :
    Linker.pathOf { l with recalled } r explicit =
      Linker.pathOf { l with recalled := recalled' } r explicit := by
  rw [pathOf, pathOf, Route.mergedValues_congr h]

/-- The answer for a name is made from the path, the only thing that recalled values go into. -/
theorem url_of_route (hroute : l.table.route? name = some r) (source : LinkValues)
    (o : LinkOptions) (recalled : Params) :
    Linker.url { l with recalled } (.named name) source o =
      match source.unfiltered? with
      | some keys => .error (.unfilteredParameters keys)
      | none => ((Linker.pathOf { l with recalled } r (source.bind r.pattern)).bind fun path =>
          l.finish r (source.bind r.pattern) path o).mapError .generation := by
  have hselect := select_named (l := { l with recalled }) hroute source
  rw [url]
  cases source.unfiltered? with
  | some keys => rfl
  | none =>
      simp only [hselect]
      rfl

/-- Two requests that agree on the keys whose recalled values count get the same answer, with and
without templates. Whether they agree or not, they do not change the value of any other key, nor
what a group comes to, nor what is put around the path. -/
theorem url_recalled (hroute : l.table.route? name = some r) (source : LinkValues)
    (o : LinkOptions) (recalled recalled' : Params) :
    ((∀ key, r.Recalls (source.bind r.pattern) key → recalled.get? key = recalled'.get? key) →
      ∀ optimize, Linker.url { l with optimize, recalled } (.named name) source o =
        Linker.url { l with optimize, recalled := recalled' } (.named name) source o) ∧
    (∀ key, ¬ r.Recalls (source.bind r.pattern) key →
      (r.mergedValues (source.bind r.pattern) recalled).get? key =
        (r.mergedValues (source.bind r.pattern) recalled').get? key) ∧
    (∀ inner, (Segments.group inner .done).emit
        (r.mergedValues (source.bind r.pattern) recalled)
        (r.isWanted (source.bind r.pattern)) =
      (Segments.group inner .done).emit (r.mergedValues (source.bind r.pattern) recalled')
        (r.isWanted (source.bind r.pattern))) ∧
    ∀ url url', Linker.url { l with recalled } (.named name) source o = .ok url →
      Linker.url { l with recalled := recalled' } (.named name) source o = .ok url' →
      ∃ path path',
        Linker.pathOf { l with recalled } r (source.bind r.pattern) = .ok path ∧
        Linker.pathOf { l with recalled := recalled' } r (source.bind r.pattern) = .ok path' ∧
        l.finish r (source.bind r.pattern) path o = .ok url ∧
        l.finish r (source.bind r.pattern) path' o = .ok url' := by
  have hfinish : ∀ recalled url, Linker.url { l with recalled } (.named name) source o = .ok url →
      ∃ path, Linker.pathOf { l with recalled } r (source.bind r.pattern) = .ok path ∧
        l.finish r (source.bind r.pattern) path o = .ok url := by
    intro recalled url hurl
    rw [url_of_route hroute] at hurl
    split at hurl
    · cases hurl
    · exact bind_eq_ok.1 (mapError_eq_ok.1 hurl)
  refine ⟨fun hagree optimize => ?_, fun key hkey => ?_, ?_, fun url url' hurl hurl' => ?_⟩
  · rw [url_of_route (l := { l with optimize }) hroute,
      url_of_route (l := { l with optimize }) hroute,
      pathOf_congr (l := { l with optimize }) hagree]
  · exact Route.get?_mergedValues_congr fun h => absurd h hkey
  · exact r.emit_group_recalled _ recalled recalled'
  · obtain ⟨path, hpath, hmade⟩ := hfinish recalled url hurl
    obtain ⟨path', hpath', hmade'⟩ := hfinish recalled' url' hurl'
    exact ⟨path, path', hpath, hpath', hmade, hmade'⟩

/-- While a page of the fifth user is shown, the number of another post, a format and a copy are
recalled or not; only the user counts. -/
theorem url_recalled_copies :
    ∃ (t : Table Unit) (r : Route Unit), Table.draw copies {} = .ok t ∧
      t.route? "post" = some r ∧
      (∀ key, r.Recalls (.ofList [("id", "7"), ("draft", "no")]) key → key = "user") ∧
      Linker.url { fifthUser t with recalled := .ofList [("format", "json"), ("user", "5")] }
          (.named "post") (.keyed (.ofList [("id", "7"), ("draft", "no")])) .pathOnly =
        .ok "/users/5/posts/7/copy/7?draft=no" ∧
      Linker.url (fifthUser t) (.named "post")
          (.keyed (.ofList [("id", "7"), ("draft", "no")])) .pathOnly =
        .ok "/users/5/posts/7/copy/7?draft=no" := by
  have hcheck : ((Table.draw copies {}).toOption.bind fun t => (t.route? "post").filter fun r =>
      decide (∀ key ∈ r.requiredKeys,
        r.Recalls (.ofList [("id", "7"), ("draft", "no")]) key → key = "user")).isSome = true := by
    decide +kernel
  have hurl : ((Table.draw copies {}).toOption.bind fun t =>
      (Linker.url (fifthUser t) (.named "post")
        (.keyed (.ofList [("id", "7"), ("draft", "no")])) .pathOnly).toOption) =
          some "/users/5/posts/7/copy/7?draft=no" := by
    decide +kernel
  obtain ⟨t, r, hdraw, hroute, hkeys⟩ := Table.exists_route_of_filter hcheck
  have hcounts : ∀ key, r.Recalls (.ofList [("id", "7"), ("draft", "no")]) key → key = "user" :=
    fun key h => of_decide_eq_true hkeys key h.1 h
  have huser : (Dict.ofList [("format", "json"), ("user", "5")]).get? "user" =
      (fifthUser t).recalled.get? "user" := by
    simp [fifthUser, Dict.ofList, Dict.insertAll]
  have hmade := toOption_eq_some.1 (eq_some_of_bind_toOption hdraw hurl)
  obtain ⟨hsame, -⟩ := url_recalled (l := fifthUser t) hroute
    (.keyed (.ofList [("id", "7"), ("draft", "no")])) .pathOnly
    (.ofList [("format", "json"), ("user", "5")]) (fifthUser t).recalled
  have hboth := hsame (fun key hkey => by rw [hcounts key hkey, huser]) (fifthUser t).optimize
  exact ⟨t, r, hdraw, hroute, hcounts, hboth.trans hmade, hmade⟩

end Linker

end RouteEngine
