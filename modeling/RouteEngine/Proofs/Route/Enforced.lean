import RouteEngine.Proofs.Constraint.Segment
import RouteEngine.Proofs.Escape.RoundTrip
import RouteEngine.Proofs.Pattern.Required
import RouteEngine.Proofs.Route.Nesting
import RouteEngine.Proofs.Table.Drawing
import RouteEngine.Proofs.Table.Recognition

/-!
Constraints on captured values. The last constraint that the scopes and the declaration put on a
name is the one in force (`constraintOn`), and where the path captures the name its expression
becomes part of the path's. So the stretch of the path that was captured satisfies the constraint,
and with it every delivered value that is written there without escapes
(`evaluate_of_matchPath`).
-/

namespace RouteEngine

open Outcome Regex

/-! ### Constraints in force -/

variable {σ : Type}

namespace Declaration

variable {d : Declaration σ} {frames : List (ScopeFrame σ)} {names : List String} {k : String}

/-- The constraint on a name: what the declaration says last, else what the frames around it say
last, the outermost of them first. -/
def constraintOn (d : Declaration σ) (frames : List (ScopeFrame σ)) (key : String) :
    Option (Constraint σ) :=
  Dict.lookup key (frames.flatMap (·.constraints) ++ d.constraints).reverse

theorem lookup_mergedConstraints (hk : names.contains k = true) :
    Dict.lookup k (d.mergedConstraints (Scope.root.nestAll frames) names) =
      d.constraintOn frames k := by
  have happlies : ∀ c : Constraint σ, appliesTo names k c = true := by
    intro c
    rw [appliesTo, hk]
    rfl
  rw [mergedConstraints, lookup_mergeEntries, Dict.lookup_filter happlies, Scope.lookup_nestAll,
    constraintOn, List.reverse_append, Dict.lookup_append]
  congr 1
  exact Option.or_none

theorem distinct_mergedConstraints (d : Declaration σ) (frames : List (ScopeFrame σ))
    (names : List String) :
    (d.mergedConstraints (Scope.root.nestAll frames) names).Pairwise fun a b => a.1 ≠ b.1 :=
  distinct_mergeEntries _ ((Scope.distinct_nestAll frames .nil).filter _)

theorem fst_of_inPath? {e : String × Constraint σ} {asked : String × String}
    (h : inPath? names e = some asked) : asked.1 = e.1 := by
  rw [inPath?] at h
  split at h
  · obtain ⟨source, -, rfl⟩ := Option.map_eq_some_iff.1 h
    rfl
  · simp at h

theorem lookup_inPath {l : List (String × Constraint σ)} (hk : names.contains k = true)
    (hl : l.Pairwise fun a b => a.1 ≠ b.1) :
    Dict.lookup k (l.filterMap (inPath? names)) =
      (Dict.lookup k l).bind Constraint.segmentRegex? := by
  induction l with
  | nil => rfl
  | cons e l ih =>
      obtain ⟨x, c⟩ := e
      obtain ⟨hfirst, hrest⟩ := List.pairwise_cons.1 hl
      specialize ih hrest
      rw [Dict.lookup]
      by_cases hx : x = k
      · subst hx
        have hlater : Dict.lookup x l = none :=
          Dict.lookup_eq_none.2 fun e he => (hfirst e he).symm
        have hhere : inPath? names (x, c) = c.segmentRegex?.map fun source => (x, source) :=
          if_pos hk
        rw [if_pos rfl, Option.bind_some]
        cases hasked : c.segmentRegex? with
        | none => rw [List.filterMap_cons_none (by rw [hhere, hasked]; rfl), ih, hlater]; rfl
        | some source =>
            rw [List.filterMap_cons_some (by rw [hhere, hasked]; rfl), Dict.lookup, if_pos rfl]
      · rw [if_neg hx, ← ih]
        cases hhere : inPath? names (x, c) with
        | none => rw [List.filterMap_cons_none hhere]
        | some asked =>
            obtain ⟨x', source⟩ := asked
            cases fst_of_inPath? hhere
            rw [List.filterMap_cons_some hhere, Dict.lookup, if_neg hx]

/-- What is asked of a name: the expression of the constraint in force, or else what the
declaration requires of the name last. -/
def askedOf (d : Declaration σ) (frames : List (ScopeFrame σ)) (key : String) : Option String :=
  ((d.constraintOn frames key).bind Constraint.segmentRegex?).or
    (Dict.lookup key d.requirements.reverse)

theorem get?_requirementsIn_eq (hk : names.contains k = true) :
    (d.requirementsIn names (d.mergedConstraints (Scope.root.nestAll frames) names)).get? k =
      d.askedOf frames k := by
  have hdistinct := distinct_mergedConstraints d frames names
  have hreverse := List.pairwise_reverse.2 (hdistinct.imp Ne.symm)
  rw [requirementsIn, Dict.get?_insertAll, ← List.filterMap_reverse, lookup_inPath hk hreverse,
    Dict.lookup_reverse hdistinct, lookup_mergedConstraints hk, Dict.ofList, Dict.get?_insertAll,
    Dict.get?_empty, Option.or_none]
  rfl

/-- The constraint in force on a captured name asks for its expression. -/
theorem get?_requirementsIn {c : Constraint σ} {asked : String} (hk : names.contains k = true)
    (hc : d.constraintOn frames k = some c) (hasked : c.segmentRegex? = some asked) :
    (d.requirementsIn names
      (d.mergedConstraints (Scope.root.nestAll frames) names)).get? k = some asked := by
  rw [get?_requirementsIn_eq hk, askedOf, hc, Option.bind_some, hasked]
  rfl

/-- The stretch of the path that a name captured satisfies the constraint in force on the name,
unless the constraint asks for words and a word goes on beyond the stretch; and so does the value
that is delivered, when nothing is escaped in the stretch. -/
theorem evaluate_of_matchPath {settings : Settings} {precedence : Nat} {r : Route σ}
    {c : Constraint σ} {path v : String} {captured : Pattern.Captured}
    (hr : d.build (Scope.root.nestAll frames) settings precedence = .ok (some r))
    (hkeeps : r.pattern.segments.Every fun c => keepsGroups c.regex = true)
    (hc : d.constraintOn frames k = some c) (hsegment : c.IsSegment)
    (hmatch : r.pattern.matchPath path = some captured)
    (hv : captured.params.get? k = some v) :
    (r.paramsFor captured.params).get? k = some v ∧
      ∃ before raw after, path.toList = before ++ raw ++ after ∧
        Escape.unescapeChars raw = some v.toList ∧
        ((c.asksWords = true →
          isWordAt false before.getLast? = false ∧ isWordAt false after.head? = false) →
            ∀ params request s, c.evaluate (some (String.ofList raw)) params request s = (true, s) ∧
              ('%' ∉ raw → c.evaluate (some v) params request s = (true, s))) := by
  obtain ⟨names, resolved, predicates, hnames, -, -, -, -, hpattern, -⟩ :=
    buildPermitted_eq_ok (buildPermitted_of_build hr)
  have hk : names.contains k = true := by
    rw [← Pattern.names_of_compile hpattern hnames]
    exact List.contains_iff_mem.2 (Pattern.mem_names_of_captured hpattern hmatch hv)
  obtain ⟨asked, hasked⟩ := Constraint.exists_segmentRegex? hsegment
  obtain ⟨a, before, raw, after, ha, hw, hpath, hvalue, hmatches⟩ :=
    Pattern.isMatch_of_captured hpattern hkeeps (get?_requirementsIn hk hc hasked) hmatch hv
  refine ⟨?_, before, raw, after, hpath, hvalue, fun hwords params request s => ?_⟩
  · rw [Route.paramsFor, Dict.get?_override, hv]
    rfl
  · rw [← Constraint.asksWords_eq hsegment hasked ha hw] at hwords
    have hraw : c.evaluate (some (String.ofList raw)) params request s = (true, s) := by
      rw [Constraint.evaluate_eq_isMatch hsegment hasked ha hw, String.toList_ofList,
        hmatches hwords]
    refine ⟨hraw, fun hescape => ?_⟩
    -- A stretch without escapes is the value as it stands.
    rw [(Escape.Spells.of_not_mem hescape).unescapeChars_eq] at hvalue
    have hsame : String.ofList raw = v := by
      rw [Option.some.inj hvalue, String.ofList_toList]
    rwa [← hsame]

/-- The constraint that an expression makes. -/
def expressed (source : String) : Constraint Unit :=
  .regex source ((Regex.parseWhole source).toOption.getD .empty)

theorem isSegment_expressed {source : String}
    (h : (Regex.parseWhole source).isOk = true) : (expressed source).IsSegment := by
  obtain ⟨w, hw⟩ := exists_ok_of_isOk h
  change Regex.parseWhole source = .ok ((Regex.parseWhole source).toOption.getD .empty)
  rw [hw]
  rfl

/-- Tags in a shop, where they are written in small letters. -/
def shopTags : Declaration Unit := { path := "/tags/:tag", target := some "tags#show" }

def shop : ScopeFrame Unit :=
  { path := some "/shop", constraints := [("tag", expressed "[a-z]+")] }

/-- The frame's constraint holds for a tag that needs no escapes. -/
theorem evaluate_of_matchPath_shopTags :
    ∃ (r : Route Unit) (captured : Pattern.Captured),
      shopTags.build (Scope.root.nestAll [shop]) {} 0 = .ok (some r) ∧
      (r.pattern.segments.Every fun c => keepsGroups c.regex = true) ∧
      shopTags.constraintOn [shop] "tag" = some (expressed "[a-z]+") ∧
      (expressed "[a-z]+").IsSegment ∧
      r.pattern.matchPath "/shop/tags/rust" = some captured ∧
      captured.params.get? "tag" = some "rust" ∧
      (r.paramsFor captured.params).get? "tag" = some "rust" ∧
      ∀ params request s,
        (expressed "[a-z]+").evaluate (some "rust") params request s = (true, s) := by
  have hmade : (shopTags.build (Scope.root.nestAll [shop]) {} 0).toOption.any (fun built =>
      built.any fun r => decide (r.pattern.segments.Every fun c => keepsGroups c.regex = true) &&
        (r.pattern.matchPath "/shop/tags/rust").any fun captured =>
          decide (captured.params.get? "tag" = some "rust")) = true := by
    decide +kernel
  obtain ⟨built, hbuilt, hmade⟩ := exists_ok_of_any hmade
  obtain ⟨r, rfl, hmade⟩ := (Option.any_eq_true _ _).1 hmade
  obtain ⟨hkeeps, hmade⟩ := Bool.and_eq_true_iff.1 hmade
  obtain ⟨captured, hmatch, htag⟩ := (Option.any_eq_true _ _).1 hmade
  have hkeeps' := of_decide_eq_true hkeeps
  have htag' := of_decide_eq_true htag
  have hsegment : (expressed "[a-z]+").IsSegment := isSegment_expressed (by decide +kernel)
  obtain ⟨hdelivered, before, raw, after, hpath, -, hraw⟩ :=
    evaluate_of_matchPath hbuilt hkeeps' rfl hsegment hmatch htag'
  have hescape : '%' ∉ raw := by
    intro hmem
    have hall : '%' ∈ "/shop/tags/rust".toList := by
      rw [hpath]
      simp [hmem]
    exact absurd hall (by decide)
  have hwords : (expressed "[a-z]+").asksWords = false := by decide +kernel
  exact ⟨r, captured, hbuilt, hkeeps', rfl, hsegment, hmatch, htag', hdelivered,
    fun params request s => (hraw (by simp [hwords]) params request s).2 hescape⟩

/-- Tags that an expression is asked of, under a path of their own. -/
def tagged (path source : String) : Entries Unit :=
  .ofDeclarations [{ path, target := some "tags#show", constraints := [("tag", expressed source)] }]

/-- A request is matched although its tag does not satisfy the constraint. -/
def Slips (path source request tag : String) : Prop :=
  ∃ (t : Table Unit) (m : RouteMatch Unit), Table.draw (tagged path source) {} = .ok t ∧
    (t.recognize { path := request } ()).1 = .ok (.matched m) ∧ m.params.get? "tag" = some tag ∧
    (expressed source).evaluate (m.params.get? "tag") m.params { path := request } () = (false, ())

theorem slips_of_recognize {path source request tag : String}
    (h : ((Table.draw (tagged path source) {}).toOption.bind fun t =>
      (t.recognize { path := request } ()).1.toOption.bind fun found =>
        found.match?.map fun m => m.params.get? "tag") = some (some tag))
    (hvalue : ((Regex.parseWhole source).toOption.getD .empty).matchesValue tag = false) :
    Slips path source request tag := by
  obtain ⟨t, ht, h⟩ := Option.bind_eq_some_iff.1 h
  obtain ⟨found, hfound, h⟩ := Option.bind_eq_some_iff.1 h
  obtain ⟨m, hm, htag⟩ := Option.map_eq_some_iff.1 h
  have hmatched := toOption_eq_some.1 hfound
  rw [Recognition.match?_eq_some.1 hm] at hmatched
  refine ⟨t, m, toOption_eq_some.1 ht, hmatched, htag, ?_⟩
  rw [htag, expressed, Constraint.evaluate, Option.any_some, hvalue]

/-- The path is matched with its escapes, and each of its stretches where it stands: so a tag may
be written with an escape, or go on with the word before it. -/
theorem slips_of_escape_and_word :
    (expressed "[^a]+").IsSegment ∧ Slips "/tags/:tag" "[^a]+" "/tags/%61" "a" ∧
      (expressed "\\Bb").IsSegment ∧ Slips "/tags/a:tag" "\\Bb" "/tags/ab" "b" :=
  ⟨isSegment_expressed (by decide +kernel),
    slips_of_recognize (by decide +kernel) (by decide +kernel),
    isSegment_expressed (by decide +kernel),
    slips_of_recognize (by decide +kernel) (by decide +kernel)⟩

end Declaration

end RouteEngine
