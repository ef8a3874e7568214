import RouteEngine.Proofs.Link.Components
import RouteEngine.Proofs.Link.Rejected
import RouteEngine.Proofs.Pattern.Demands

/-!
Positional values. When there are more values than required captures they are given to the names
of the pattern, and each name is listed once, where it stands first. So as long as no name repeats,
the captures take the values in the order of the text; when a name repeats, the value of its first
capture stays, and every value behind that of its second capture goes to a capture too early. The
difference can always be seen (`url_positional_iff`): a value that is long enough, given to the
first capture of a repeated name, stands in the path in one case and is replaced in the other.
-/

namespace RouteEngine

open Outcome

variable {σ : Type}

/-! ### Names that repeat -/

namespace Names

theorem distinct_eq_self {ns : List String} (h : ns.Nodup) : distinct ns = ns := by
  induction ns with
  | nil => rfl
  | cons n ns ih =>
      obtain ⟨hn, hns⟩ := List.nodup_cons.1 h
      have hkept : ∀ m ∈ ns, decide (m ≠ n) = true := fun m hm =>
        decide_eq_true fun heq => hn (heq ▸ hm)
      rw [distinct, ih hns, List.filter_eq_self.2 hkept]

theorem distinct_sublist (ns : List String) : (distinct ns).Sublist ns := by
  induction ns with
  | nil => exact .slnil
  | cons n ns ih => exact (List.filter_sublist.trans ih).cons_cons n

/-- Up to the first name that comes again, every name is kept in its place. -/
theorem exists_repeated {ns : List String} (h : ¬ ns.Nodup) :
    ∃ before n behind rest, ns = before ++ n :: behind ∧ n ∈ behind ∧
      distinct ns = before ++ n :: rest := by
  induction ns with
  | nil => exact absurd List.nodup_nil h
  | cons m ns ih =>
      by_cases hm : m ∈ ns
      · exact ⟨[], m, ns, _, rfl, hm, rfl⟩
      · obtain ⟨before, n, behind, rest, hns, hn, hdistinct⟩ :=
          ih fun hns => h (List.nodup_cons.2 ⟨hm, hns⟩)
        have hkept : ∀ k ∈ distinct ns, decide (k ≠ m) = true := fun k hk =>
          decide_eq_true fun heq => hm (heq ▸ mem_distinct.1 hk)
        refine ⟨m :: before, n, behind, rest, by rw [hns, List.cons_append], hn, ?_⟩
        rw [distinct, List.filter_eq_self.2 hkept, hdistinct, List.cons_append]

end Names

namespace Dict

variable {α : Type} {l m : List (String × α)} {key : String} {value : α}

/-- The last entry of a key counts. -/
theorem get?_ofList_of_last (h : key ∉ m.map (·.1)) :
    (ofList (l ++ (key, value) :: m)).get? key = some value := by
  have hbehind : lookup key m.reverse = none :=
    lookup_eq_none.2 fun e he heq => h (heq ▸ List.mem_map_of_mem (List.mem_reverse.1 he))
  rw [ofList, get?_insertAll, List.reverse_append, List.reverse_cons, lookup_append, lookup_append,
    hbehind]
  simp [lookup]

/-- An entry that is written over may as well be left out. -/
theorem ofList_of_overwritten (h : key ∈ m.map (·.1)) :
    ofList (l ++ (key, value) :: m) = ofList (l ++ m) := by
  refine ext_get? fun k => ?_
  simp only [ofList, get?_insertAll, List.reverse_append, List.reverse_cons, lookup_append]
  by_cases hk : key = k
  · subst hk
    have hcontains := contains_ofList.2 h
    rw [contains, ofList, get?_insertAll, get?_empty, Option.or_none] at hcontains
    obtain ⟨v, hv⟩ := Option.isSome_iff_exists.1 hcontains
    simp [hv]
  · simp [lookup, hk]

theorem mem_keys_ofList_zip {names : List String} {values : List α}
    (h : names.length ≤ values.length) {k : String} :
    k ∈ (ofList (names.zip values)).keys ↔ k ∈ names := by
  rw [mem_keys, contains_ofList, List.map_fst_zip h]

theorem exists_get?_ofList_zip {names : List String} {values : List α}
    (h : names.length ≤ values.length) {k : String} (hk : k ∈ names) :
    ∃ v ∈ values, (ofList (names.zip values)).get? k = some v := by
  obtain ⟨v, hv⟩ := Option.isSome_iff_exists.1 (mem_keys.1 ((mem_keys_ofList_zip h).2 hk))
  exact ⟨v, (List.of_mem_zip (mem_of_get?_ofList hv)).2, hv⟩

end Dict

/-- Where a name repeats there are values for which it matters whether each name is listed once or
as often as it stands there: they have a mark that goes to the name in the one case and is written
over in the other. -/
theorem exists_values_of_repeated {ns : List String} (h : ¬ ns.Nodup) :
    ∃ n ∈ ns, ∀ filler mark : String, ∃ values : List String, values.length = ns.length ∧
      (∀ v ∈ values, v = filler ∨ v = mark) ∧
      (Dict.ofList ((Names.distinct ns).zip values)).get? n = some mark ∧
      Dict.ofList (ns.zip values) = Dict.ofList (ns.zip (ns.map fun _ => filler)) := by
  obtain ⟨before, n, behind, rest, rfl, hn, hdistinct⟩ := Names.exists_repeated h
  have hnodup := Names.nodup_distinct (before ++ n :: behind)
  rw [hdistinct] at hnodup
  have hrest : n ∉ rest := (List.nodup_cons.1 (List.nodup_append.1 hnodup).2.1).1
  refine ⟨n, by simp, fun filler mark =>
    ⟨before.map (fun _ => filler) ++ mark :: behind.map fun _ => filler, by simp, ?_, ?_, ?_⟩⟩
  · intro v hv
    simp only [List.mem_append, List.mem_cons, List.mem_map] at hv
    rcases hv with ⟨_, -, rfl⟩ | rfl | ⟨_, -, rfl⟩
    exacts [.inl rfl, .inr rfl, .inl rfl]
  · rw [hdistinct, List.zip_append (by simp), List.zip_cons_cons]
    refine Dict.get?_ofList_of_last fun hmem => ?_
    obtain ⟨e, he, rfl⟩ := List.mem_map.1 hmem
    exact hrest (List.of_mem_zip he).1
  · have hagain : n ∈ (behind.zip (behind.map fun _ => filler)).map (·.1) := by
      rw [List.map_fst_zip (by simp)]
      exact hn
    rw [List.map_append, List.map_cons, List.zip_append (by simp), List.zip_append (by simp),
      List.zip_cons_cons, List.zip_cons_cons, Dict.ofList_of_overwritten hagain,
      Dict.ofList_of_overwritten hagain]

/-! ### Captures that are all given -/

theorem Capture.length_le_length_escape (c : Capture) (value : String) :
    value.toList.length ≤ (c.escape value).length := by
  unfold escape
  split <;> exact Escape.length_le_length_escapeWith _

namespace Segments

variable {given : String → Bool} {values : Params} {wanted : String → Bool} {name : String}

/-- When every capture is given, so that no group is left out, each name is placed. -/
theorem placed_of_occurrences {s : Segments} {optional : Bool}
    (hgiven : ∀ o ∈ s.occurrences optional, given o.capture.name = true)
    (hname : name ∈ (s.occurrences optional).map fun o => o.capture.name) :
    s.Placed given name := by
  induction s generalizing optional with
  | done => cases hname
  | literal _ next ih => exact ih hgiven hname
  | capture c next ih =>
      obtain ⟨-, hnext⟩ := List.forall_mem_cons.1 hgiven
      exact (List.mem_cons.1 hname).imp Eq.symm (ih hnext)
  | group inner next ihInner ihNext =>
      obtain ⟨hinner, hnext⟩ := List.forall_mem_append.1 hgiven
      rw [occurrences, List.map_append] at hname
      rcases List.mem_append.1 hname with hname | hname
      · have hplaced := ihInner hinner hname
        have hdirect : ∀ c ∈ inner.directCaptures, given c.name = true := fun c hc =>
          hinner _ (mem_occurrences_of_mem_directCaptures hc true)
        exact .inl ⟨includable_of_placed hdirect hplaced, hplaced⟩
      · exact .inr (ihNext hnext hname)

/-- A value that is put in takes at least its own length. -/
theorem length_le_length_emit {v : String} (hv : values.get? name = some v) {s : Segments}
    (h : name ∈ (s.emit values wanted).used) :
    v.toList.length ≤ (s.emit values wanted).text.length := by
  induction s with
  | done => cases h
  | literal text next ih =>
      have hnext := ih (by simpa [emit, Emitted.append] using h)
      rw [emit, Emitted.append, List.length_append]
      omega
  | capture c next ih =>
      rw [emit_capture, Emitted.append] at h ⊢
      rw [List.length_append]
      rcases List.mem_append.1 h with h | h
      · have hc : c.name = name := by
          rw [Capture.emitted] at h
          split at h
          · exact (List.mem_singleton.1 h).symm
          · cases h
        have hhere : v.toList.length ≤ (c.emitted values).text.length := by
          rw [Capture.emitted_of_get? (hc ▸ hv)]
          exact c.length_le_length_escape v
        omega
      · have hnext := ih h
        omega
  | group inner next ihInner ihNext =>
      rw [emit, Emitted.append] at h ⊢
      rw [List.length_append]
      rcases List.mem_append.1 h with h | h
      · split at h
        · next hwritten =>
            have hinner := ihInner h
            rw [if_pos hwritten]
            omega
        · cases h
      · have hnext := ihNext h
        omega

end Segments

namespace Pattern

/-- The names of the captures in the order of the text, as often as they stand there. -/
def occurring (p : Pattern) : List String :=
  (p.segments.occurrences false).map fun o => o.capture.name

theorem mem_names_iff_mem_occurring {p : Pattern} {name : String} :
    name ∈ p.names ↔ name ∈ p.occurring :=
  Names.mem_distinct

theorem length_requiredNames_lt {p : Pattern}
    (h : ∃ o ∈ p.segments.occurrences false, o.optional = true) :
    p.requiredNames.length < p.occurring.length := by
  rw [requiredNames, Segments.requiredNames, ← Segments.map_filter_occurrences, occurring]
  simp only [List.length_map]
  refine List.length_filter_lt_length_iff_exists.2 ?_
  simpa using h

end Pattern

/-! ### Paths that tell values apart -/

/-- A text that is longer than the others. -/
theorem exists_longer (others : List String) :
    ∃ s : String, ∀ t ∈ others, t.toList.length < s.toList.length := by
  induction others with
  | nil => exact ⟨"", fun t ht => absurd ht List.not_mem_nil⟩
  | cons u others ih =>
      obtain ⟨s, hs⟩ := ih
      have hlength : (u ++ s ++ "a").toList.length = u.toList.length + s.toList.length + 1 := by
        simp [Nat.add_assoc]
      refine ⟨u ++ s ++ "a", List.forall_mem_cons.2 ⟨by omega, fun t ht => ?_⟩⟩
      have hlt := hs t ht
      omega

/-- The empty text and the defaults: a longer value is none of them. -/
def Route.shorter (r : Route σ) : List String := "" :: r.defaults.entries.map (·.2)

theorem Route.gives_of_longer {r : Route σ} {explicit recalled : Params} {n v : String}
    (hv : explicit.get? n = some v)
    (hlong : ∀ t ∈ r.shorter, t.toList.length < v.toList.length) :
    r.gives explicit recalled n = true ∧ r.valueOf explicit recalled n = some v := by
  have hnot : v ∉ r.shorter := fun hmem => absurd (hlong v hmem) (lt_irrefl _)
  rw [shorter, List.mem_cons, not_or] at hnot
  have hvalue : r.valueOf explicit recalled n = some v := by
    rw [valueOf_eq_some, sourceOf, hv]
    exact ⟨rfl, hnot.1⟩
  have hwanted : r.isWanted explicit n = true := by
    simp only [isWanted, hv, ne_eq, decide_eq_true_eq]
    exact fun hdefault => hnot.2 (List.mem_map_of_mem (Dict.get?_eq_some.1 hdefault))
  rw [gives, hwanted, hvalue]
  exact ⟨rfl, rfl⟩

theorem Route.gives_zip {r : Route σ} {recalled : Params} {names values : List String}
    (hlength : names.length ≤ values.length)
    (hlong : ∀ v ∈ values, ∀ t ∈ r.shorter, t.toList.length < v.toList.length) :
    ∀ n ∈ names, r.gives (Dict.ofList (names.zip values)) recalled n = true := by
  intro n hn
  obtain ⟨v, hmem, hv⟩ := Dict.exists_get?_ofList_zip hlength hn
  exact (gives_of_longer hv (hlong v hmem)).1

namespace Linker

variable {l : Linker σ} {r : Route σ} {explicit explicit' : Params} {name : String}

theorem params_of_pathOf {e : GenerationError} (h : l.pathOf r explicit = .error e) :
    e.params = r.mergedValues explicit l.recalled := by
  simp only [pathOf] at h
  split at h
  · cases h
    rfl
  · split at h
    · cases h
    · cases h
      rfl

/-- With values of the names of a route only, the path itself is the answer. -/
theorem path_of_names (hroute : l.table.route? name = some r)
    (hkeys : ∀ n ∈ explicit.keys, n ∈ r.pattern.names) :
    l.path (.named name) (.keyed explicit) =
      ((l.pathOf r explicit).map fun path => l.script ++ path).mapError .generation := by
  have hsource : (LinkValues.keyed explicit).unfiltered? = none := rfl
  cases hpath : l.pathOf r explicit with
  | error e =>
      rw [path_of_select hsource (select_named hroute _)]
      simp only [LinkValues.bind, hpath, Except.map]
  | ok path => exact path_of_pathOf hroute hsource (Route.queryPairs_eq_nil hkeys) hpath

/-- Values of the names lead to one answer only if their paths are made alike. -/
theorem pathOf_eq_of_path_eq (hroute : l.table.route? name = some r)
    (hkeys : ∀ n ∈ explicit.keys, n ∈ r.pattern.names)
    (hkeys' : ∀ n ∈ explicit'.keys, n ∈ r.pattern.names)
    (h : l.path (.named name) (.keyed explicit) = l.path (.named name) (.keyed explicit')) :
    l.pathOf r explicit = l.pathOf r explicit' := by
  rw [path_of_names hroute hkeys, path_of_names hroute hkeys'] at h
  cases hpath : l.pathOf r explicit with
  | error e =>
      cases hpath' : l.pathOf r explicit' with
      | error e' =>
          rw [hpath, hpath'] at h
          cases h
          rfl
      | ok path' =>
          rw [hpath, hpath'] at h
          cases h
  | ok path =>
      cases hpath' : l.pathOf r explicit' with
      | error e' =>
          rw [hpath, hpath'] at h
          cases h
      | ok path' =>
          rw [hpath, hpath'] at h
          have hurl : l.script ++ path = l.script ++ path' := Except.ok.inj h
          rw [← String.toList_inj, String.toList_append, String.toList_append,
            List.append_cancel_left_eq, String.toList_inj] at hurl
          rw [hurl]

/-- A path of values that are all given has room for each of them. -/
theorem length_le_of_pathOf (hsound : r.TemplateSound)
    (hgives : ∀ n ∈ r.pattern.names, r.gives explicit l.recalled n = true) {v path : String}
    (hname : name ∈ r.pattern.names) (hv : r.valueOf explicit l.recalled name = some v)
    (h : l.pathOf r explicit = .ok path) : v.toList.length ≤ path.toList.length := by
  have hgiven : ∀ n ∈ r.pattern.names, (r.isWanted explicit n &&
      (r.mergedValues explicit l.recalled).contains n) = true := by
    intro n hn
    rw [Dict.contains, Route.get?_mergedValues_eq]
    exact hgives n hn
  have hvalue : (r.mergedValues explicit l.recalled).get? name = some v := by
    rw [Route.get?_mergedValues_eq, hv]
  have hplaced : r.pattern.segments.Placed (fun n => r.isWanted explicit n &&
      (r.mergedValues explicit l.recalled).contains n) name :=
    Segments.placed_of_occurrences
      (fun o ho => hgiven _ (Pattern.mem_names_iff_mem_occurring.2 (List.mem_map_of_mem ho)))
      (Pattern.mem_names_iff_mem_occurring.1 hname)
  rw [text_of_pathOf hsound h]
  refine Segments.length_le_length_emit hvalue (Segments.mem_used_emit.2 ⟨?_, hplaced⟩)
  rw [Dict.contains, hvalue]
  rfl

/-- Two paths differ when all values of the first are given, one of them is not a value of the
second, and the second path has no room for it. -/
theorem pathOf_ne_of_room (hsound : r.TemplateSound)
    (hgives : ∀ n ∈ r.pattern.names, r.gives explicit l.recalled n = true) {v : String}
    (hname : name ∈ r.pattern.names) (hv : r.valueOf explicit l.recalled name = some v)
    (hv' : r.valueOf explicit' l.recalled name ≠ some v)
    (hroom : ∀ path, l.pathOf r explicit' = .ok path → path.toList.length < v.toList.length) :
    l.pathOf r explicit ≠ l.pathOf r explicit' := by
  intro heq
  cases hpath : l.pathOf r explicit' with
  | error e =>
      -- An error reports all values, so it tells them apart as well.
      have hmerged := (params_of_pathOf (heq.trans hpath)).symm.trans (params_of_pathOf hpath)
      rw [← Route.get?_mergedValues_eq] at hv hv'
      exact hv' (hmerged ▸ hv)
  | ok path =>
      have hle := length_le_of_pathOf hsound hgives hname hv (heq.trans hpath)
      have hlt := hroom path hpath
      omega

/-! ### Positional and keyed values -/

/-- More values than the path requires are given to the names of the pattern, each of them listed
once. -/
theorem url_positional_of_more {values : List String}
    (hroute : l.table.route? name = some r) (hmore : r.pattern.requiredNames.length < values.length)
    (o : LinkOptions) :
    l.url (.named name) (.positional values) o =
      l.url (.named name) (.keyed (Dict.ofList (r.pattern.names.zip values))) o := by
  have hbind : (LinkValues.positional values).bind r.pattern =
      (LinkValues.keyed (Dict.ofList (r.pattern.names.zip values))).bind r.pattern := by
    rw [LinkValues.bind, LinkValues.bind, LinkValues.positionalNames, if_pos hmore]
  simp only [url, LinkValues.unfiltered?, select_named hroute, hbind]

/-- When a name repeats, some values for all captures of the route make a path in their places
that they do not make when each name is listed once. -/
theorem exists_path_ne_of_repeated (hsound : r.TemplateSound)
    (hroute : l.table.route? name = some r)
    (hoptional : ∃ o ∈ r.pattern.segments.occurrences false, o.optional = true)
    (hrepeat : ¬ r.pattern.occurring.Nodup) :
    ∃ values : List String, values.length = r.pattern.occurring.length ∧
      l.path (.named name) (.positional values) ≠
        l.path (.named name) (.keyed (Dict.ofList (r.pattern.occurring.zip values))) := by
  obtain ⟨n, hn, hvalues⟩ := exists_values_of_repeated hrepeat
  -- Values that are longer than the defaults enter every group. The mark is longer, too, than the
  -- path that is made without it.
  obtain ⟨filler, hfiller⟩ := exists_longer r.shorter
  let fillers := r.pattern.occurring.map fun _ => filler
  let filled := Dict.ofList (r.pattern.occurring.zip fillers)
  obtain ⟨mark, hmark⟩ := exists_longer (filler :: (l.pathOf r filled).toOption.toList)
  obtain ⟨hlonger, hroom⟩ := List.forall_mem_cons.1 hmark
  have hmarkLong : ∀ t ∈ r.shorter, t.toList.length < mark.toList.length := fun t ht =>
    (hfiller t ht).trans hlonger
  obtain ⟨values, hlength, hmem, hget, hzip⟩ := hvalues filler mark
  have hlong : ∀ v ∈ values, ∀ t ∈ r.shorter, t.toList.length < v.toList.length := by
    intro v hv
    rcases hmem v hv with rfl | rfl
    exacts [hfiller, hmarkLong]
  have hle : r.pattern.names.length ≤ values.length :=
    hlength ▸ (Names.distinct_sublist r.pattern.occurring).length_le
  have hfills : r.pattern.occurring.length ≤ fillers.length := (List.length_map _).ge
  have hwithout : r.valueOf filled l.recalled n ≠ some mark := by
    obtain ⟨v, hmem, hv⟩ := Dict.exists_get?_ofList_zip hfills hn
    obtain ⟨_, -, rfl⟩ := List.mem_map.1 hmem
    rw [(Route.gives_of_longer hv hfiller).2]
    rintro ⟨⟩
    exact lt_irrefl _ hlonger
  refine ⟨values, hlength, fun hpath => ?_⟩
  rw [Linker.path, Linker.path, url_positional_of_more hroute
    (hlength ▸ Pattern.length_requiredNames_lt hoptional), hzip] at hpath
  have hsame := pathOf_eq_of_path_eq hroute
    (fun k => (Dict.mem_keys_ofList_zip hle).1)
    (fun k hk => Pattern.mem_names_iff_mem_occurring.2 ((Dict.mem_keys_ofList_zip hfills).1 hk))
    hpath
  exact pathOf_ne_of_room hsound (Route.gives_zip hle hlong)
    (Pattern.mem_names_iff_mem_occurring.2 hn) (Route.gives_of_longer hget hmarkLong).2 hwithout
    (fun path hmade => hroom path (by simp [hmade, Except.toOption])) hsame

/-- One value for each capture of a named route of a drawn table that has an optional capture:
given in the order of the text, they go to the names of the pattern, each of which is listed once.
So they make the URL that they make when every capture takes the value in its place, the last one
of a repeated name counting, exactly for the routes in which no name repeats. -/
theorem url_positional {entries : Entries σ} {settings : Settings}
    (hdraw : Table.draw entries settings = .ok l.table) (hroute : l.table.route? name = some r)
    (hoptional : ∃ o ∈ r.pattern.segments.occurrences false, o.optional = true) :
    (∀ (values : List String) (o : LinkOptions), values.length = r.pattern.occurring.length →
      l.url (.named name) (.positional values) o =
        l.url (.named name) (.keyed (Dict.ofList (r.pattern.names.zip values))) o) ∧
    ((∀ (values : List String) (o : LinkOptions), values.length = r.pattern.occurring.length →
      l.url (.named name) (.positional values) o =
        l.url (.named name) (.keyed (Dict.ofList (r.pattern.occurring.zip values))) o) ↔
      r.pattern.occurring.Nodup) := by
  have hsound : r.TemplateSound :=
    Table.forall_routes_of_draw (fun _ _ _ _ => Route.templateSound_of_build) hdraw r
      (Table.mem_of_route?_eq_some hroute)
  have hlisted : ∀ (values : List String) (o : LinkOptions),
      values.length = r.pattern.occurring.length →
        l.url (.named name) (.positional values) o =
          l.url (.named name) (.keyed (Dict.ofList (r.pattern.names.zip values))) o :=
    fun values o hlength =>
      url_positional_of_more hroute (hlength ▸ Pattern.length_requiredNames_lt hoptional) o
  refine ⟨hlisted, fun hsame => ?_, fun hnodup values o hlength => ?_⟩
  · refine Classical.byContradiction fun hrepeat => ?_
    obtain ⟨values, hlength, hne⟩ := exists_path_ne_of_repeated hsound hroute hoptional hrepeat
    exact hne (hsame values .pathOnly hlength)
  · have hnames : r.pattern.names = r.pattern.occurring := Names.distinct_eq_self hnodup
    rw [hlisted values o hlength, hnames]

/-- The captures of a named route, if some of them are optional. -/
def occurringOf (t : Table σ) (name : String) : Option (List String) :=
  (t.route? name).bind fun r =>
    if (r.pattern.segments.occurrences false).any (·.optional) then some r.pattern.occurring
    else none

theorem occurringOf_eq_some {t : Table σ} {names : List String} :
    occurringOf t name = some names ↔ ∃ r, t.route? name = some r ∧
      (∃ o ∈ r.pattern.segments.occurrences false, o.optional = true) ∧
      r.pattern.occurring = names := by
  rw [occurringOf, Option.bind_eq_some_iff]
  refine exists_congr fun r => and_congr_right fun _ => ?_
  rw [← List.any_eq_true]
  split <;> simp [*]

/-- A project, perhaps in a format. -/
def project : Entries Unit :=
  .route { path := "/projects/:id", name := some "project", target := some "projects#show" } .done

theorem url_positional_project :
    ∃ (t : Table Unit) (r : Route Unit), Table.draw project {} = .ok t ∧
      t.route? "project" = some r ∧
      (∃ o ∈ r.pattern.segments.occurrences false, o.optional = true) ∧
      r.pattern.occurring = ["id", "format"] ∧
      ∀ (o : LinkOptions),
        (ofTable t {}).url (.named "project") (.positional ["7", "json"]) o =
          (ofTable t {}).url (.named "project")
            (.keyed (Dict.ofList [("id", "7"), ("format", "json")])) o := by
  have hcheck : ((Table.draw project {}).toOption.bind fun t => occurringOf t "project") =
      some ["id", "format"] := by
    decide +kernel
  obtain ⟨t, hdraw, hcaptures⟩ := Option.bind_eq_some_iff.1 hcheck
  have hdraw := toOption_eq_some.1 hdraw
  obtain ⟨r, hroute, hoptional, hoccurring⟩ := occurringOf_eq_some.1 hcaptures
  obtain ⟨-, hiff⟩ := url_positional (l := ofTable t {}) hdraw hroute hoptional
  rw [hoccurring] at hiff
  exact ⟨t, r, hdraw, hroute, hoptional, hoccurring, fun o =>
    hiff.2 (by decide) ["7", "json"] o rfl⟩

/-- A download with its number twice in the path. -/
def download : Entries Unit :=
  .route { path := "/downloads/:id/:id.tar", name := some "download"
           target := some "downloads#show" } .done

/-- The second number is taken for the format, and the first one stands in both places. -/
theorem url_positional_download :
    ∃ (t : Table Unit) (r : Route Unit), Table.draw download {} = .ok t ∧
      t.route? "download" = some r ∧
      (∃ o ∈ r.pattern.segments.occurrences false, o.optional = true) ∧
      r.pattern.occurring = ["id", "id", "format"] ∧
      (ofTable t {}).path (.named "download") (.positional ["1", "2", "gz"]) =
        .ok "/downloads/1/1.tar.2" ∧
      (ofTable t {}).path (.named "download")
          (.keyed (Dict.ofList (r.pattern.occurring.zip ["1", "2", "gz"]))) =
        .ok "/downloads/2/2.tar.gz" := by
  have hcheck : ((Table.draw download {}).toOption.bind fun t => occurringOf t "download") =
      some ["id", "id", "format"] := by
    decide +kernel
  have hpositional : ((Table.draw download {}).toOption.bind fun t =>
      ((ofTable t {}).path (.named "download") (.positional ["1", "2", "gz"])).toOption) =
        some "/downloads/1/1.tar.2" := by
    decide +kernel
  have hkeyed : ((Table.draw download {}).toOption.bind fun t =>
      ((ofTable t {}).path (.named "download") (.keyed (Dict.ofList
        (["id", "id", "format"].zip ["1", "2", "gz"])))).toOption) =
          some "/downloads/2/2.tar.gz" := by
    decide +kernel
  obtain ⟨t, hdraw, hcaptures⟩ := Option.bind_eq_some_iff.1 hcheck
  have hdraw := toOption_eq_some.1 hdraw
  obtain ⟨r, hroute, hoptional, hoccurring⟩ := occurringOf_eq_some.1 hcaptures
  refine ⟨t, r, hdraw, hroute, hoptional, hoccurring,
    toOption_eq_some.1 (eq_some_of_bind_toOption hdraw hpositional), ?_⟩
  rw [hoccurring]
  exact toOption_eq_some.1 (eq_some_of_bind_toOption hdraw hkeyed)

end Linker

end RouteEngine
