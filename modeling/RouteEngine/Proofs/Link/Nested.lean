import RouteEngine.Proofs.Link.RoundTrip
import RouteEngine.Proofs.Pattern.Chain

/-!
Optional names one inside another, there and back. A name whose value is the default counts as
not given, so its group is left out with all groups inside; on the way back the default stands in
for it, but for none of the names further in. What is lost is thus exactly a value behind a name
that was given its own default (`path_nested`), and `loses_of_default` shows one.
-/

namespace RouteEngine

open Outcome

variable {σ : Type}

/-- In a list without repetitions a member is taken when it passes with all those before it. -/
theorem mem_takeWhile_of_nodup {α : Type} {p : α → Bool} {a : α} {before behind : List α}
    (h : (before ++ a :: behind).Nodup) :
    a ∈ (before ++ a :: behind).takeWhile p ↔ (∀ b ∈ before, p b = true) ∧ p a = true := by
  induction before with
  | nil => cases hp : p a <;> simp [hp]
  | cons b before ih =>
      rw [List.cons_append, List.nodup_cons] at h
      have hne : a ≠ b := by
        rintro rfl
        exact h.1 (List.mem_append_right _ List.mem_cons_self)
      rw [List.cons_append, List.takeWhile_cons, List.forall_mem_cons, and_assoc, ← ih h.2]
      cases hp : p b <;> simp [hne]

namespace Route

variable {r : Route σ} {explicit params : Params} {supplied others : List String}

/-- A given name is wanted unless its value is the default. -/
theorem isWanted_iff {n : String} (hn : explicit.contains n = true) :
    (r.isWanted explicit n && explicit.contains n) = true ↔
      r.defaults.get? n ≠ explicit.get? n := by
  obtain ⟨v, hv⟩ := Option.isSome_iff_exists.1 hn
  rw [hn, Bool.and_true, isWanted, hv]
  exact decide_eq_true_iff

/-- Names that are written come back with their values, and the others with their defaults. -/
theorem get?_paramsFor_chain {required : List String}
    (hnames : (required ++ (supplied ++ others)).Nodup)
    (hgiven : ∀ n ∈ supplied, explicit.contains n = true)
    (hparams : ∀ n, params.get? n =
      if n ∈ required ++ (supplied ++ others).takeWhile fun n =>
        r.isWanted explicit n && explicit.contains n then explicit.get? n else none)
    {outer inner : List String} {n : String} (h : supplied = outer ++ n :: inner) :
    (r.paramsFor params).get? n = explicit.get? n ↔
      r.defaults.get? n = explicit.get? n ∨
        ∀ m ∈ outer, r.defaults.get? m ≠ explicit.get? m := by
  subst h
  have hn : n ∈ outer ++ n :: inner := List.mem_append_right _ List.mem_cons_self
  rw [List.append_assoc, List.cons_append] at hnames hparams
  obtain ⟨-, hchain, hapart⟩ := List.nodup_append.1 hnames
  have hrequired : n ∉ required :=
    fun hmem => hapart n hmem n (List.mem_append_right _ List.mem_cons_self) rfl
  -- The name is written when it is wanted and so are all those around it.
  have hwritten : n ∈ required ++ (outer ++ n :: (inner ++ others)).takeWhile (fun n =>
      r.isWanted explicit n && explicit.contains n) ↔
        (∀ m ∈ outer, r.defaults.get? m ≠ explicit.get? m) ∧
          r.defaults.get? n ≠ explicit.get? n := by
    rw [List.mem_append, or_iff_right hrequired, mem_takeWhile_of_nodup hchain]
    refine and_congr (forall₂_congr fun m hm => ?_) (isWanted_iff (hgiven n hn))
    exact isWanted_iff (hgiven m (List.mem_append_left _ hm))
  obtain ⟨v, hv⟩ := Option.isSome_iff_exists.1 (hgiven n hn)
  rw [paramsFor, Dict.get?_override, hparams]
  split
  · next hmem =>
      refine iff_of_true ?_ (.inr (hwritten.1 hmem).1)
      rw [hv, Option.some_or]
  · next hnot =>
      rw [Option.none_or]
      refine ⟨.inl, fun h => h.elim id fun houter => ?_⟩
      exact Decidable.byContradiction fun hne => hnot (hwritten.2 ⟨houter, hne⟩)

end Route

namespace Linker

variable {l : Linker σ} {r : Route σ} {name : String}

/-- For a separated path that ends in a chain of groups, and values for the required names and for
those of an initial run of the chain, the path that is made is matched back. Every required name
gets its value again. A name of the chain gets it exactly when it is the default, or when no name
around it was given its default; what those defaults hide is lost. -/
theorem path_nested {entries : Entries σ} {settings : Settings} {supplied others : List String}
    (source : LinkValues) (hdraw : Table.draw entries settings = .ok l.table)
    (hroute : l.table.route? name = some r)
    (hrequirements : r.pattern.requirements = .empty)
    (hchain : r.pattern.segments.EndsInChain (supplied ++ others))
    (hend : r.isAnchored = true ∨ supplied ++ others ≠ [])
    (hnames : (r.pattern.requiredNames ++ (supplied ++ others)).Nodup)
    (hsep : Pattern.isSeparated r.path = true) (hsource : source.unfiltered? = none)
    (hkeys : ∀ n, n ∈ (source.bind r.pattern).keys ↔ n ∈ r.pattern.requiredNames ++ supplied)
    (hvalues : ∀ n v, (source.bind r.pattern).get? n = some v → v ≠ "" ∧ '.' ∉ v.toList) :
    ∃ path params, l.path (.named name) source = .ok (l.script ++ path) ∧
      r.pattern.matchPath path = some ⟨params, ""⟩ ∧
      (∀ n ∈ r.pattern.requiredNames,
        (r.paramsFor params).get? n = (source.bind r.pattern).get? n) ∧
      ∀ outer n inner, supplied = outer ++ n :: inner →
        ((r.paramsFor params).get? n = (source.bind r.pattern).get? n ↔
          r.defaults.get? n = (source.bind r.pattern).get? n ∨
            ∀ m ∈ outer, r.defaults.get? m ≠ (source.bind r.pattern).get? m) := by
  have hmem : r ∈ l.table.routes := Table.mem_of_route?_eq_some hroute
  have hsound : r.TemplateSound :=
    Table.forall_routes_of_draw (fun _ _ _ _ => Route.templateSound_of_build) hdraw r hmem
  obtain ⟨_, _, _, hcompiled⟩ := Table.exists_compile_of_draw hdraw r hmem
  have hplain := Pattern.plain_of_compile (Pattern.compile_empty_of_compile hcompiled hrequirements)
  obtain rfl := hplain.anchored_eq
  have hgiven : ∀ n ∈ r.pattern.requiredNames ++ supplied,
      (source.bind r.pattern).contains n = true := fun n hn => Dict.mem_keys.1 ((hkeys n).2 hn)
  have hdirect : ∀ c ∈ r.pattern.segments.directCaptures,
      (source.bind r.pattern).contains c.name = true :=
    fun c hc => hgiven c.name (List.mem_append_left _ (List.mem_map_of_mem hc))
  have hcaptures : ∀ n ∈ (source.bind r.pattern).keys, n ∈ r.pattern.names := by
    intro n hn
    refine Names.mem_distinct.2 ?_
    rw [hchain.names_eq, ← List.append_assoc]
    exact List.mem_append_left _ ((hkeys n).1 hn)
  have hpath := path_of_explicit hsound hroute hsource
    (Route.rejectedNames_eq_nil hrequirements _) hcaptures hdirect fun n v hv => (hvalues n v hv).1
  have hfinal : r.pattern.anchored = true ∨
      r.pattern.segments.Every fun c => c.kind = .dynamic := by
    refine hend.imp_right fun hne => ?_
    obtain ⟨n, names, heq⟩ := List.exists_cons_of_ne_nil hne
    exact (heq ▸ hchain).every_dynamic (hplain.separated hsep)
  have hsuits : ∀ o ∈ r.pattern.segments.occurrences false,
      o.capture.Suits (source.bind r.pattern) :=
    fun o _ v hv => ⟨(hvalues _ v hv).1, fun _ => (hvalues _ v hv).2⟩
  obtain ⟨params, hmatch, hparams⟩ := Pattern.exists_matchPath_filling hplain hsep hfinal
    (Segments.every_of_occurrences hsuits) hdirect (hchain.written _)
  rw [hchain.captured_eq] at hparams
  refine ⟨_, params, hpath, hmatch, fun n hn => ?_, fun outer n inner heq => ?_⟩
  · obtain ⟨v, hv⟩ := Option.isSome_iff_exists.1 (hgiven n (List.mem_append_left _ hn))
    have hwritten : n ∈ r.pattern.segments.requiredNames := hn
    rw [Route.paramsFor, Dict.get?_override, hparams, if_pos (List.mem_append_left _ hwritten), hv]
    rfl
  · exact Route.get?_paramsFor_chain hnames (fun n hn => hgiven n (List.mem_append_right _ hn))
      hparams heq

/-- An archive, perhaps of a year, a month or a day. It shows this year by itself. -/
def archive : Entries Unit :=
  .route { path := "/archive(/:year(/:month(/:day)))", name := some "archive"
           target := some "archive#index", defaults := .ofList [("year", "2024")]
           format := some .disabled } .done

/-- What comes back of the values of a name: the path made from them, and the values that the
route delivers for it. -/
def thereAndBack (t : Table Unit) (name : String) (explicit : Params) :
    Option (String × Params) :=
  (t.route? name).bind fun r =>
    ((ofTable t {}).path (.named name) (.keyed explicit)).toOption.bind fun path =>
      (r.pattern.matchPath path).map fun m => (path, r.paramsFor m.params)

/-- A month of another year comes back. -/
theorem path_nested_archive :
    ∃ (t : Table Unit) (r : Route Unit) (path : String) (params : Params),
      Table.draw archive {} = .ok t ∧ t.route? "archive" = some r ∧
      (ofTable t {}).path (.named "archive")
        (.keyed (.ofList [("month", "5"), ("year", "2023")])) =
          .ok ((ofTable t {}).script ++ path) ∧
      r.pattern.matchPath path = some ⟨params, ""⟩ ∧
      (r.paramsFor params).get? "month" = some "5" := by
  have hcheck : ((Table.draw archive {}).toOption.bind fun t => (t.route? "archive").filter fun r =>
      decide (r.pattern.segments =
          .literal "/archive" (Segments.slashChain ["year", "month", "day"]) ∧
        r.pattern.requirements = .empty ∧ r.isAnchored = true ∧
        Pattern.isSeparated r.path = true ∧
        r.defaults.get? "year" = some "2024")).isSome = true := by
    decide +kernel
  obtain ⟨t, r, hdraw, hroute, hfacts⟩ := Table.exists_route_of_filter hcheck
  obtain ⟨htree, hrequirements, hanchored, hsep, hdefault⟩ := of_decide_eq_true hfacts
  have hchain : r.pattern.segments.EndsInChain (["year", "month"] ++ ["day"]) := by
    rw [htree]
    exact .literal _ (.chain (.of_slashChain _))
  have hrequired : r.pattern.requiredNames = [] := by
    rw [Pattern.requiredNames, htree]
    rfl
  have hkeys : ∀ n, n ∈ (Dict.ofList [("month", "5"), ("year", "2023")]).keys ↔
      n ∈ r.pattern.requiredNames ++ ["year", "month"] := by
    intro n
    have heq : (Dict.ofList [("month", "5"), ("year", "2023")]).keys = ["month", "year"] := by
      decide +kernel
    rw [heq, hrequired]
    simp [or_comm]
  have hvalues : ∀ n v, (Dict.ofList [("month", "5"), ("year", "2023")]).get? n = some v →
      v ≠ "" ∧ '.' ∉ v.toList := by
    intro n v hv
    have hmem := Dict.mem_of_get?_ofList hv
    simp only [List.mem_cons, Prod.mk.injEq, List.not_mem_nil, or_false] at hmem
    rcases hmem with ⟨-, rfl⟩ | ⟨-, rfl⟩ <;> decide +kernel
  obtain ⟨path, params, hpath, hmatch, -, hback⟩ := path_nested (l := ofTable t {})
    (.keyed (.ofList [("month", "5"), ("year", "2023")])) hdraw hroute hrequirements
    hchain (.inl hanchored) (by rw [hrequired]; decide) hsep rfl hkeys hvalues
  have hyear : ∀ m ∈ ["year"], r.defaults.get? m ≠
      (Dict.ofList [("month", "5"), ("year", "2023")]).get? m := by
    simp only [List.mem_singleton, forall_eq, hdefault]
    decide +kernel
  have hmonth := (hback ["year"] "month" [] rfl).2 (.inr hyear)
  exact ⟨t, r, path, params, hdraw, hroute, hpath, hmatch, hmonth⟩

/-- Two names in one segment, and one behind it. -/
def ranges : Entries Unit :=
  .route { path := "/:from-:to(/:page)", name := some "range", target := some "ranges#show"
           format := some .disabled } .done

/-- A month of this year is lost, because the year is left out with all that is behind it. And two
names in one segment take what they can get of it. -/
theorem loses_of_default :
    ∃ t t' : Table Unit, Table.draw archive {} = .ok t ∧ Table.draw ranges {} = .ok t' ∧
      (thereAndBack t "archive" (.ofList [("month", "5"), ("year", "2024")])).map
        (fun back => (back.1, back.2.get? "year", back.2.get? "month")) =
          some ("/archive", some "2024", none) ∧
      (thereAndBack t' "range" (.ofList [("from", "x"), ("to", "y-z")])).map
        (fun back => (back.1, back.2.get? "from", back.2.get? "to")) =
          some ("/x-y-z", some "x-y", some "z") := by
  have harchive : ((Table.draw archive {}).toOption.any fun t => decide (
      (thereAndBack t "archive" (.ofList [("month", "5"), ("year", "2024")])).map
        (fun back => (back.1, back.2.get? "year", back.2.get? "month")) =
          some ("/archive", some "2024", none))) = true := by
    decide +kernel
  have hranges : ((Table.draw ranges {}).toOption.any fun t => decide (
      (thereAndBack t "range" (.ofList [("from", "x"), ("to", "y-z")])).map
        (fun back => (back.1, back.2.get? "from", back.2.get? "to")) =
          some ("/x-y-z", some "x-y", some "z"))) = true := by
    decide +kernel
  obtain ⟨t, ht, harchive⟩ := exists_ok_of_any harchive
  obtain ⟨t', ht', hranges⟩ := exists_ok_of_any hranges
  exact ⟨t, t', ht, ht', of_decide_eq_true harchive, of_decide_eq_true hranges⟩

end Linker

end RouteEngine
