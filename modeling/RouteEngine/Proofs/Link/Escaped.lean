import RouteEngine.Proofs.Link.RoundTrip
import RouteEngine.Proofs.Pattern.Slotted

/-!
Expressions between a link and its match. A link holds an expression against the value that it is
given, a match against what stands in the path, the escaped value. For a plain path these two
tests decide everything: the path is made exactly when every expression takes its value, and it is
matched back, to the same values, exactly when every expression takes its escaped value
(`path_slotted`). Where escaping changes nothing the two are one; `parts_of_escape` shows both ways
in which they part.
-/

namespace RouteEngine

open Outcome Regex

variable {σ : Type}

/-! ### Escaped values -/

theorem Escape.mem_escapeWith_of_safe {safe : Char → Bool} {c : Char} {s : List Char}
    (hsafe : safe c = true) (hc : c ∈ s) : c ∈ escapeWith safe s := by
  refine List.mem_flatMap.2 ⟨c, hc, ?_⟩
  rw [escapeChar, if_pos hsafe]
  exact List.mem_singleton_self c

/-- Without requirements a capture takes the escaped values that have no point. -/
theorem Capture.takes_escape_of_isPlain {c : Capture} (hc : c.IsPlain) (hkind : c.kind = .dynamic)
    {value : String} (hvalue : value ≠ "") :
    Takes c.inside none (c.escape value) [] ↔ '.' ∉ value.toList := by
  have hparse : Regex.parse c.regex = .ok c.inside := inside_eq_body hc ▸ parse_regex hc
  have hlooks : c.inside.looks = [] := by rw [inside_eq_body hc]; rfl
  rw [takes_iff_mem_language hlooks, ← language_eq hparse, mem_language_of_isPlain hc]
  constructor
  · rintro ⟨-, hclass⟩ hpoint
    have hmem : '.' ∈ c.escape value := by
      simp only [escape, hkind]
      exact Escape.mem_escapeWith_of_safe (by decide) hpoint
    have hholds := hclass '.' hmem
    simp only [charClass, hkind] at hholds
    exact absurd hholds (by decide +kernel)
  · intro hpoint
    exact ⟨escape_ne_nil hvalue, fun x hx => holds_escape (fun _ => hpoint) hx⟩

/-- A path may have the value in it: the expression asked for by the name takes the escaped value,
and without one there is no point in the value. -/
def Pattern.MeetsEscaped (p : Pattern) (name value : String) : Prop :=
  p.Meets name (Escape.escapeSegment value) ∧ (p.requirement? name = none → '.' ∉ value.toList)

instance (p : Pattern) (name value : String) : Decidable (p.MeetsEscaped name value) :=
  inferInstanceAs (Decidable (_ ∧ (p.requirement? name = none → _)))

/-- What is written for slots takes up its texts alone when each value does. -/
theorem Segments.alone_filling_iff {s : Segments} {prev : Option Char} (hs : s.Slotted prev)
    {values : Params} {wanted : String → Bool} :
    (s.filling values wanted).Alone ↔
      ∀ c ∈ s.directCaptures, Takes c.inside none (c.emitted values).text [] := by
  induction s generalizing prev with
  | done => simp [filling, Walk.Alone, directCaptures]
  | literal text next ih => exact ih hs
  | capture c next ih =>
      rw [filling, Walk.Alone, ih hs.2.2.2, directCaptures, List.forall_mem_cons]
  | group inner next _ _ => exact hs.elim

namespace Pattern

variable {requirements : Dict String} {source : String} {anchored : Bool} {p : Pattern}

/-- What a capture takes alone is what a path may have in it for its name. -/
theorem takes_escape_iff (hp : compile source requirements anchored = .ok p) {c : Capture}
    (hrequires : c.Requires requirements) (hparse : Regex.parse c.regex = .ok c.inside)
    (hkind : c.kind = .dynamic) {value : String} (hvalue : value ≠ "") :
    Takes c.inside none (c.escape value) [] ↔ p.MeetsEscaped c.name value := by
  have hrequired := requirement?_of_compile hp c.name
  rw [MeetsEscaped, Meets]
  unfold Capture.Requires at hrequires
  cases hasked : requirements.get? c.name with
  | none =>
      rw [hasked] at hrequires hrequired
      generalize p.requirement? c.name = found at hrequired
      cases hrequired
      simpa using Capture.takes_escape_of_isPlain hrequires hkind hvalue
  | some asked =>
      rw [hasked] at hrequires hrequired
      generalize p.requirement? c.name = found at hrequired
      cases hrequired with
      | @some _ w hw =>
          obtain rfl : c.regex = asked := hrequires
          obtain rfl := Capture.whole_inside hparse hw
          have hescape : (Escape.escapeSegment value).toList = c.escape value := by
            simp only [Escape.escapeSegment, String.toList_ofList, Capture.escape, hkind]
          simp [matchesValue, hescape, isMatch_whole]

/-- A path written into slots is matched back when each value may stand in it, and else not at
all. -/
theorem matchPath_escaped (hp : compile source requirements true = .ok p) (haligned : p.Aligned)
    (hslotted : p.segments.Slotted none)
    (hborder : p.segments.Every fun c => c.inside.asksBorder = false) {values : Params}
    (wanted : String → Bool) (hkeys : ∀ n, n ∈ values.keys ↔ n ∈ p.requiredNames)
    (hvalues : ∀ n v, values.get? n = some v → v ≠ "") :
    p.matchPath (String.ofList (p.segments.filling values wanted).text) = some ⟨values, ""⟩ ∧
        (∀ n v, values.get? n = some v → p.MeetsEscaped n v) ∨
      p.matchPath (String.ofList (p.segments.filling values wanted).text) = none ∧
        ¬ ∀ n v, values.get? n = some v → p.MeetsEscaped n v := by
  have hcaptures := ((requires_of_compile hp).and (compiledBy_of_compile hp).2).and
    hslotted.every_dynamic
  have htakes : ∀ c ∈ p.segments.directCaptures, ∀ v, values.get? c.name = some v →
      (Takes c.inside none (c.emitted values).text [] ↔ p.MeetsEscaped c.name v) := by
    intro c hc v hv
    obtain ⟨⟨hrequires, hparse⟩, hkind⟩ :=
      hcaptures.of_mem_occurrences (Segments.mem_occurrences_of_mem_directCaptures hc false)
    rw [Capture.emitted_of_get? hv]
    exact takes_escape_iff hp hrequires hparse hkind (hvalues _ v hv)
  have hdirect : ∀ c ∈ p.segments.directCaptures, values.contains c.name = true :=
    fun c hc => Dict.mem_keys.1 ((hkeys c.name).2 (List.mem_map_of_mem hc))
  have halone : (p.segments.filling values wanted).Alone ↔
      ∀ n v, values.get? n = some v → p.MeetsEscaped n v := by
    rw [Segments.alone_filling_iff hslotted]
    constructor
    · intro h n v hv
      have hkey : n ∈ p.requiredNames := by
        rw [← hkeys, Dict.mem_keys, Dict.contains, hv]
        rfl
      obtain ⟨c, hc, rfl⟩ := List.mem_map.1 hkey
      exact (htakes c hc v hv).1 (h c hc)
    · intro h c hc
      obtain ⟨v, hv⟩ := Option.isSome_iff_exists.1 (hdirect c hc)
      exact (htakes c hc v hv).2 (h c.name v hv)
  rw [← halone]
  exact matchPath_slotted hp haligned hslotted hborder hdirect fun n hn => (hkeys n).1 hn

end Pattern

namespace Route

variable {r : Route σ} {explicit : Params}

theorem valueOf_of_explicit {recalled : Params} {n v : String}
    (hv : explicit.get? n = some v) (hne : v ≠ "") :
    r.valueOf explicit recalled n = some v := by
  rw [valueOf_eq_some, sourceOf, hv]
  exact ⟨rfl, hne⟩

/-- When the caller gives each name a value, only these values count. -/
theorem accepts_iff_of_explicit (recalled : Params)
    (hkeys : ∀ n, n ∈ explicit.keys ↔ n ∈ r.pattern.names)
    (hvalues : ∀ n v, explicit.get? n = some v → v ≠ "") :
    (∀ n ∈ r.pattern.names, ∀ v ∈ r.valueOf explicit recalled n, r.pattern.Meets n v) ↔
      ∀ n v, explicit.get? n = some v → r.pattern.Meets n v := by
  constructor
  · intro h n v hv
    have hn : n ∈ r.pattern.names := by
      rw [← hkeys, Dict.mem_keys, Dict.contains, hv]
      rfl
    exact h n hn v (valueOf_of_explicit hv (hvalues n v hv))
  · intro h n hn v hv
    obtain ⟨w, hw⟩ := Option.isSome_iff_exists.1 (Dict.mem_keys.1 ((hkeys n).2 hn))
    obtain rfl : w = v :=
      Option.some.inj ((valueOf_of_explicit hw (hvalues n w hw)).symm.trans hv)
    exact h n w hw

end Route

namespace Linker

variable {l : Linker σ} {r : Route σ} {name : String}

/-- When the caller gives each name a value, a path is made unless an expression refuses one. -/
theorem path_isOk_iff_of_explicit {source : LinkValues} (hsound : r.TemplateSound)
    (hroute : l.table.route? name = some r) (hsource : source.unfiltered? = none)
    (hkeys : ∀ n, n ∈ (source.bind r.pattern).keys ↔ n ∈ r.pattern.names)
    (hvalues : ∀ n v, (source.bind r.pattern).get? n = some v → v ≠ "") :
    (∃ url, l.path (.named name) source = .ok url) ↔
      ∀ n v, (source.bind r.pattern).get? n = some v → r.pattern.Meets n v := by
  rw [path_isOk_iff hsource (select_named hroute source), pathOf_isOk_iff hsound,
    Route.accepts_iff_of_explicit l.recalled hkeys hvalues, and_iff_left]
  intro n hn hnone
  obtain ⟨c, hc, rfl⟩ := List.mem_map.1 hn
  have hname : c.name ∈ r.pattern.names :=
    Pattern.mem_names.2 ⟨_, Segments.mem_occurrences_of_mem_directCaptures hc false, rfl⟩
  obtain ⟨v, hv⟩ := Option.isSome_iff_exists.1 (Dict.mem_keys.1 ((hkeys _).2 hname))
  rw [Route.valueOf_of_explicit hv (hvalues _ v hv)] at hnone
  cases hnone

/-- The path of an anchored plain route is made exactly when the expression of each name takes the
value given for it. What is made is matched back to these values when each expression takes the
escaped value too, and else not at all. Names without an expression take what has no point. So the
values come back where escaping leaves them as they are.

Expressions may ask for words, but not for the border of the text or of a line, and all but the
last one have to keep their groups. -/
theorem path_slotted {entries : Entries σ} {settings : Settings} {parts : List Part}
    (source : LinkValues) (hdraw : Table.draw entries settings = .ok l.table)
    (hroute : l.table.route? name = some r)
    (hparts : ∀ part ∈ parts, part.IsProper) (hpath : r.path.toList = Part.pathText parts)
    (hanchored : r.isAnchored = true) (haligned : r.pattern.Aligned)
    (hborder : r.pattern.segments.Every fun c => c.inside.asksBorder = false)
    (hsource : source.unfiltered? = none)
    (hkeys : ∀ n, n ∈ (source.bind r.pattern).keys ↔ n ∈ r.pattern.names)
    (hvalues : ∀ n v, (source.bind r.pattern).get? n = some v → v ≠ "") :
    ((∃ url, l.path (.named name) source = .ok url) ↔
      ∀ n v, (source.bind r.pattern).get? n = some v → r.pattern.Meets n v) ∧
    ∀ url, l.path (.named name) source = .ok url → ∃ path, url = l.script ++ path ∧
      (r.pattern.matchPath path = some ⟨source.bind r.pattern, ""⟩ ∧
          (∀ n v, (source.bind r.pattern).get? n = some v → r.pattern.MeetsEscaped n v) ∨
        r.pattern.matchPath path = none ∧
          ∃ n v, (source.bind r.pattern).get? n = some v ∧ ¬ r.pattern.MeetsEscaped n v) ∧
      ((∀ n v, (source.bind r.pattern).get? n = some v → Escape.escapeSegment v = v ∧
          (r.pattern.requirement? n = none → '.' ∉ v.toList)) →
        r.pattern.matchPath path = some ⟨source.bind r.pattern, ""⟩) := by
  have hmem : r ∈ l.table.routes := Table.mem_of_route?_eq_some hroute
  have hsound : r.TemplateSound :=
    Table.forall_routes_of_draw (fun _ _ _ _ => Route.templateSound_of_build) hdraw r hmem
  obtain ⟨_, requirements, anchored, hp⟩ := Table.exists_compile_of_draw hdraw r hmem
  obtain ⟨_, _, _, -, -, -, -, -, -, -, hanchored', hsource'⟩ := Pattern.compile_eq_ok hp
  obtain rfl : anchored = true := hanchored'.symm.trans hanchored
  rw [← hsource'] at hp
  have hslotted : r.pattern.segments.Slotted none := Pattern.slotted_of_compile hparts hpath hp
  have hrequired : ∀ n, n ∈ (source.bind r.pattern).keys ↔ n ∈ r.pattern.requiredNames := by
    intro n
    rw [hkeys, Pattern.names, Segments.names, Names.mem_distinct, hslotted.names_eq]
    rfl
  have hdirect : ∀ c ∈ r.pattern.segments.directCaptures,
      (source.bind r.pattern).contains c.name = true :=
    fun c hc => Dict.mem_keys.1 ((hrequired c.name).2 (List.mem_map_of_mem hc))
  -- Every name has a value of the caller, so no default and nothing recalled comes in.
  have haccepts := Route.accepts_iff_of_explicit l.recalled hkeys hvalues
  have hmade := path_isOk_iff_of_explicit hsound hroute hsource hkeys hvalues
  refine ⟨hmade, fun url hurl => ?_⟩
  have hmeets := hmade.1 ⟨url, hurl⟩
  have hrejected : r.rejectedNames (r.mergedValues (source.bind r.pattern) l.recalled) = [] := by
    simpa only [Route.rejectedNames_eq_nil_iff, Route.get?_mergedValues_eq] using haccepts.2 hmeets
  have hwritten := path_of_explicit hsound hroute hsource hrejected
    (fun n hn => (hkeys n).1 hn) hdirect hvalues
  cases hurl.symm.trans hwritten
  have hmatch := Pattern.matchPath_escaped hp haligned hslotted hborder
    (r.isWanted (source.bind r.pattern)) hrequired hvalues
  refine ⟨_, rfl, ?_, fun hsame => ?_⟩
  · simpa only [not_forall, exists_prop] using hmatch
  · refine (hmatch.resolve_right fun h => h.2 fun n v hv => ?_).1
    obtain ⟨hescape, hpoint⟩ := hsame n v hv
    refine ⟨?_, hpoint⟩
    rw [hescape]
    exact hmeets n v hv

/-- Things with a tag, of which something is asked. -/
def tagged (asked : String) : Entries Unit :=
  .route { path := "/tags/:tag", name := some "tag", target := some "tags#show"
           requirements := [("tag", asked)], format := some .disabled } .done

theorem path_slotted_tagged :
    ∃ (t : Table Unit) (r : Route Unit) (url path : String),
      Table.draw (tagged "[a-z ]+") {} = .ok t ∧ t.route? "tag" = some r ∧
      (ofTable t {}).path (.named "tag") (.keyed (.ofList [("tag", "news")])) = .ok url ∧
      url = (ofTable t {}).script ++ path ∧
      r.pattern.matchPath path = some ⟨.ofList [("tag", "news")], ""⟩ := by
  have hcheck : ((Table.draw (tagged "[a-z ]+") {}).toOption.bind fun t =>
      (t.route? "tag").filter fun r => decide (r.path = "/tags/:tag" ∧ r.isAnchored = true ∧
        r.pattern.names = ["tag"] ∧ (r.pattern.segments.occurrences false).dropLast = [] ∧
        (∀ o ∈ r.pattern.segments.occurrences false, o.capture.inside.asksBorder = false) ∧
        r.pattern.requirement? "tag" ≠ none ∧ r.pattern.Meets "tag" "news")).isSome = true := by
    decide +kernel
  obtain ⟨t, r, hdraw, hroute, hfacts⟩ := Table.exists_route_of_filter hcheck
  obtain ⟨hpath, hanchored, hnames, hlast, hborder, hasked, hmeets⟩ := of_decide_eq_true hfacts
  obtain ⟨_, _, _, hp⟩ :=
    Table.exists_compile_of_draw hdraw r (Table.mem_of_route?_eq_some hroute)
  have haligned : r.pattern.Aligned := (Pattern.aligned_iff hp).2 (by simp [hlast])
  have hparts : ∀ part ∈ [Part.literal "tags", .param "tag"], part.IsProper := by decide +kernel
  have htext : r.path.toList = Part.pathText [.literal "tags", .param "tag"] := by
    rw [hpath]
    decide +kernel
  have hget : ∀ n v, (Dict.ofList [("tag", "news")]).get? n = some v → n = "tag" ∧ v = "news" :=
    fun n v hv => Prod.mk.inj (List.mem_singleton.1 (Dict.mem_of_get?_ofList hv))
  have hkeys : ∀ n, n ∈ (Dict.ofList [("tag", "news")]).keys ↔ n ∈ r.pattern.names := by
    intro n
    have heq : (Dict.ofList [("tag", "news")]).keys = ["tag"] := by decide +kernel
    rw [heq, hnames]
  obtain ⟨hmade, hback⟩ := path_slotted (l := ofTable t {})
    (.keyed (.ofList [("tag", "news")])) hdraw hroute hparts htext hanchored haligned
    (Segments.every_of_occurrences hborder) rfl hkeys fun n v hv => by
      obtain ⟨-, rfl⟩ := hget n v hv
      decide
  obtain ⟨url, hurl⟩ := hmade.2 fun n v hv => by
    obtain ⟨rfl, rfl⟩ := hget n v hv
    exact hmeets
  obtain ⟨path, hsplit, -, hsame⟩ := hback url hurl
  refine ⟨t, r, url, path, hdraw, hroute, hurl, hsplit, hsame fun n v hv => ?_⟩
  obtain ⟨rfl, rfl⟩ := hget n v hv
  exact ⟨by decide +kernel, fun hnone => absurd hnone hasked⟩

/-- The path that is made of the tag, if any, and the values that the route matches `path` to. -/
def tagAnswers (t : Table Unit) (tag path : String) :
    Option (Option String × Option (List (String × String))) :=
  (t.route? "tag").map fun r =>
    (((ofTable t {}).path (.named "tag") (.keyed (.ofList [("tag", tag)]))).toOption,
      (r.pattern.matchPath path).map (·.params.entries))

/-- An expression that takes a space does not take its escape, and the other way round. -/
theorem parts_of_escape :
    ∃ t t' : Table Unit, Table.draw (tagged "[a-z ]+") {} = .ok t ∧
      Table.draw (tagged "[a-z0-9%]+") {} = .ok t' ∧
      tagAnswers t "a b" "/tags/a%20b" = some (some "/tags/a%20b", none) ∧
      tagAnswers t' "a b" "/tags/a%20b" = some (none, some [("tag", "a b")]) := by
  have hspace : ((Table.draw (tagged "[a-z ]+") {}).toOption.any fun t =>
      decide (tagAnswers t "a b" "/tags/a%20b" = some (some "/tags/a%20b", none))) = true := by
    decide +kernel
  have hescape : ((Table.draw (tagged "[a-z0-9%]+") {}).toOption.any fun t =>
      decide (tagAnswers t "a b" "/tags/a%20b" = some (none, some [("tag", "a b")]))) = true := by
    decide +kernel
  obtain ⟨t, ht, hspace⟩ := exists_ok_of_any hspace
  obtain ⟨t', ht', hescape⟩ := exists_ok_of_any hescape
  exact ⟨t, t', ht, ht', of_decide_eq_true hspace, of_decide_eq_true hescape⟩

end Linker

end RouteEngine
