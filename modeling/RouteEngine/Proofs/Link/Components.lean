import RouteEngine.Proofs.Escape.Alphabet
import RouteEngine.Proofs.Link.Query
import RouteEngine.Proofs.Link.RoundTrip

/-!
The parts of a relative URL: the path, the query and the fragment, as a reader finds them who cuts
at the first number sign and then at the first question mark. Each part is written with an
alphabet of its own, and none of them has a character at which an earlier part would end: escaped
values bring neither mark into the path (`noDivider_emit`), a form brings no number sign into the
query, and behind the first number sign nothing is cut any more. So the parts are found as they
were put together (`ofUrl_relative`), whatever the values and the anchor say
(`url_components`).
-/

namespace RouteEngine

open Outcome

variable {σ : Type}

/-! ### Cutting a URL -/

/-- What stands before the first separator and, if there is one, what stands behind it. -/
def cutAt (sep : Char) (s : List Char) : List Char × Option (List Char) :=
  match Text.splitFirst sep s with
  | some (before, behind) => (before, some behind)
  | none => (s, none)

structure Components where
  path : List Char
  query : Option (List Char)
  fragment : Option (List Char)
  deriving DecidableEq, Repr

/-- Cuts at the first number sign, and what is before it at the first question mark. -/
def Components.ofUrl (url : List Char) : Components :=
  let (front, fragment) := cutAt '#' url
  let (path, query) := cutAt '?' front
  ⟨path, query, fragment⟩

theorem cutAt_append_cons {sep : Char} {a : List Char} (ha : sep ∉ a) (b : List Char) :
    cutAt sep (a ++ sep :: b) = (a, some b) := by
  rw [cutAt, Text.splitFirst_eq_some.2 ⟨rfl, ha⟩]

theorem cutAt_of_not_mem {sep : Char} {s : List Char} (hs : sep ∉ s) : cutAt sep s = (s, none) := by
  rw [cutAt]
  split
  · next before behind h =>
      rw [(Text.splitFirst_eq_some.1 h).1] at hs
      exact absurd (List.mem_append_right _ List.mem_cons_self) hs
  · rfl

/-! ### Texts that are not cut -/

/-- Neither of the characters at which a path ends. -/
def NoDivider (s : List Char) : Prop := '?' ∉ s ∧ '#' ∉ s

instance (s : List Char) : Decidable (NoDivider s) :=
  inferInstanceAs (Decidable ('?' ∉ s ∧ '#' ∉ s))

namespace NoDivider

variable {s t : List Char}

theorem append (hs : NoDivider s) (ht : NoDivider t) : NoDivider (s ++ t) :=
  ⟨by simp [hs.1, ht.1], by simp [hs.2, ht.2]⟩

theorem of_subset (ht : NoDivider t) (h : s ⊆ t) : NoDivider s :=
  ⟨fun hs => ht.1 (h hs), fun hs => ht.2 (h hs)⟩

theorem escape (c : Capture) (value : String) : NoDivider (c.escape value) := by
  have hquestion : '?' ∉ "%0123456789ABCDEF".toList := by decide +kernel
  have hnumber : '#' ∉ "%0123456789ABCDEF".toList := by decide +kernel
  rw [Capture.escape]
  cases c.kind with
  | dynamic =>
      exact ⟨Escape.not_mem_escapeWith (fun _ => by decide) hquestion,
        Escape.not_mem_escapeWith (fun _ => by decide) hnumber⟩
  | glob =>
      exact ⟨Escape.not_mem_escapeWith (fun _ => by decide) hquestion,
        Escape.not_mem_escapeWith (fun _ => by decide) hnumber⟩

end NoDivider

/-- The literal texts of the tree, one behind another. -/
def Segments.literalText : Segments → List Char
  | done => []
  | literal text next => text.toList ++ next.literalText
  | capture _ next => next.literalText
  | group inner next => inner.literalText ++ next.literalText

/-- What a tree writes is cut nowhere, unless one of its literals is. -/
theorem noDivider_emit (values : Params) (wanted : String → Bool) {s : Segments}
    (h : NoDivider s.literalText) : NoDivider (s.emit values wanted).text := by
  induction s with
  | done => exact h
  | literal text next ih =>
      have hnext := ih (h.of_subset (List.subset_append_right _ _))
      exact (h.of_subset (List.subset_append_left _ _)).append hnext
  | capture c next ih =>
      have hhere : NoDivider (c.emitted values).text := by
        rw [Capture.emitted]
        split
        · exact .escape c _
        · exact ⟨List.not_mem_nil, List.not_mem_nil⟩
      rw [Segments.emit_capture]
      exact hhere.append (ih h)
  | group inner next ihInner ihNext =>
      have hnext := ihNext (h.of_subset (List.subset_append_right _ _))
      rw [Segments.emit]
      split
      · exact (ihInner (h.of_subset (List.subset_append_left _ _))).append hnext
      · exact hnext

/-! ### The parts of a link -/

namespace Route

variable {r : Route σ} {explicit : Params}

/-- The key has no place in the path, no default and no meaning of its own. -/
def IsExtra (r : Route σ) (key : String) : Prop :=
  key ∉ r.pattern.names ∧ r.defaults.get? key = none ∧ key ∉ Pattern.reservedNames

theorem mem_queryPairs {key value : String} :
    (key, value) ∈ r.queryPairs explicit ↔ explicit.get? key = some value ∧ r.IsExtra key := by
  simp [queryPairs, IsExtra, Dict.get?_eq_some, Dict.contains, Pattern.isReserved, and_assoc]

theorem pairwise_queryPairs (r : Route σ) (explicit : Params) :
    (r.queryPairs explicit).Pairwise fun a b => a.1 < b.1 :=
  explicit.sorted.filter _

end Route

namespace Linker

variable {l : Linker σ} {r : Route σ} {explicit : Params} {o : LinkOptions} {path : String}

/-- The script name that the call or, without one, the settings give. -/
def scriptName (l : Linker σ) (o : LinkOptions) : String :=
  (o.scriptName.or l.defaults.scriptName).getD ""

/-- The path behind the script name, with the slash at its end that the call may ask for. -/
def fullPath (l : Linker σ) (o : LinkOptions) (path : String) : List Char :=
  withTrailingSlash o.trailingSlash
    (Text.trimEnd (· = '/') (l.scriptName o).toList ++ path.toList)

theorem noDivider_fullPath (hscript : NoDivider (l.scriptName o).toList)
    (hpath : NoDivider path.toList) : NoDivider (l.fullPath o path) := by
  have htrimmed : NoDivider (Text.trimEnd (· = '/') (l.scriptName o).toList) := by
    refine hscript.of_subset fun c hc => ?_
    exact List.mem_reverse.1 ((List.dropWhile_suffix _).subset (List.mem_reverse.1 hc))
  rw [fullPath, withTrailingSlash]
  split
  · exact (htrimmed.append hpath).append (by decide)
  · exact htrimmed.append hpath

/-- The query as it stands in the URL, if there is one. -/
def queryText (r : Route σ) (explicit : Params) : Option (List Char) :=
  if r.queryPairs explicit = [] then none else some (Query.encodeAll (r.queryPairs explicit))

theorem relative_eq (l : Linker σ) (r : Route σ) (explicit : Params) (path : String)
    (o : LinkOptions) :
    l.relative r explicit path o =
      (l.fullPath o path ++ (queryText r explicit).elim [] ('?' :: ·)) ++ anchorText o.anchor := by
  rw [relative, queryText]
  by_cases hpairs : r.queryPairs explicit = []
  · simp [hpairs, fullPath, scriptName, Query.encodeAll, Text.join]
  · simp [hpairs, fullPath, scriptName, Query.encodeAll_eq_nil]

/-- The parts are found as they were put together. -/
theorem ofUrl_relative (hscript : NoDivider (l.scriptName o).toList)
    (hpath : NoDivider path.toList) :
    Components.ofUrl (l.relative r explicit path o) =
      { path := l.fullPath o path
        query := queryText r explicit
        fragment := o.anchor.map fun anchor =>
          Escape.escapeWith Escape.isFragmentSafe anchor.toList } := by
  obtain ⟨hquestion, hnumber⟩ := noDivider_fullPath hscript hpath
  have hfront : cutAt '?' (l.fullPath o path ++ (queryText r explicit).elim [] ('?' :: ·)) =
      (l.fullPath o path, queryText r explicit) := by
    cases queryText r explicit with
    | none =>
        rw [Option.elim_none, List.append_nil]
        exact cutAt_of_not_mem hquestion
    | some query => exact cutAt_append_cons hquestion query
  have hform : '#' ∉ Query.encodeAll (r.queryPairs explicit) :=
    Query.not_mem_encodeAll (by decide) (by decide) (by decide +kernel) _
  have hnone : '#' ∉ l.fullPath o path ++ (queryText r explicit).elim [] ('?' :: ·) := by
    rw [queryText]
    split <;> simp [hnumber, hform]
  have hwhole : cutAt '#' (l.relative r explicit path o) =
      (l.fullPath o path ++ (queryText r explicit).elim [] ('?' :: ·),
        o.anchor.map fun anchor => Escape.escapeWith Escape.isFragmentSafe anchor.toList) := by
    rw [relative_eq]
    cases o.anchor with
    | none =>
        rw [anchorText, List.append_nil]
        exact cutAt_of_not_mem hnone
    | some anchor => exact cutAt_append_cons hnone _
  simp only [Components.ofUrl, hwhole, hfront]

/-- A path that can be made is what the pattern writes. -/
theorem text_of_pathOf (hsound : r.TemplateSound) (h : l.pathOf r explicit = .ok path) :
    path.toList = (r.pattern.segments.emit (r.mergedValues explicit l.recalled)
      (r.isWanted explicit)).text := by
  have hmade := (pathOf_isOk_iff hsound).1 ⟨path, h⟩
  simp only [← Route.get?_mergedValues_eq] at hmade
  have hrejected := Route.rejectedNames_eq_nil_iff.2 hmade.1
  obtain ⟨g, hg⟩ := Pattern.exists_generate (r.isWanted explicit)
    (Pattern.missingNames_eq_nil.2 hmade.2)
  have hpath : path = g.path :=
    Except.ok.inj (h.symm.trans (pathOf_of_generate hsound hrejected hg))
  rw [hpath, (Pattern.path_of_generate hg).2, String.toList_ofList, Segments.text_emit]

/-! ### Links -/

/-- What a URL says, part by part, of the path that was made and of what the caller gave. -/
structure Says (l : Linker σ) (r : Route σ) (explicit : Params) (path : String) (o : LinkOptions)
    (c : Components) : Prop where
  path : c.path = l.fullPath o path
  /-- Without a query there is nothing to say. -/
  query : ∃ pairs, Query.decodeAll (c.query.getD []) = some pairs ∧ (c.query = none ↔ pairs = []) ∧
    pairs.Pairwise (fun a b => a.1 < b.1) ∧
    ∀ key value, (key, value) ∈ pairs ↔ explicit.get? key = some value ∧ r.IsExtra key
  fragment : c.fragment.map (fun f => Escape.unescape (String.ofList f)) = o.anchor.map some

theorem says_ofUrl (hscript : NoDivider (l.scriptName o).toList)
    (hpath : NoDivider path.toList) :
    l.Says r explicit path o (.ofUrl (l.relative r explicit path o)) := by
  rw [ofUrl_relative hscript hpath]
  refine ⟨rfl, ⟨r.queryPairs explicit, ?_, ?_, r.pairwise_queryPairs explicit, fun key value =>
    Route.mem_queryPairs⟩, ?_⟩
  · rw [queryText]
    split
    · next hpairs => rw [hpairs]; rfl
    · exact Query.decodeAll_encodeAll _
  · simp [queryText]
  · rw [Option.map_map]
    refine congrArg (Option.map · o.anchor) (funext fun anchor => ?_)
    exact Escape.unescape_ofList_escapeWith (by decide) anchor

/-- Cutting the relative URL of a drawn table finds the generated path, the caller's values that
have no place elsewhere and the anchor again, for all values and anchors; and there is a URL
whenever there is a path. -/
theorem url_components {entries : Entries σ} {settings : Settings} {target : LinkTarget}
    {source : LinkValues} (hdraw : Table.draw entries settings = .ok l.table)
    (hselect : l.select target source = .ok (r, explicit)) (honly : o.onlyPath = true)
    (hliteral : NoDivider r.pattern.segments.literalText)
    (hscript : NoDivider (l.scriptName o).toList) :
    (∀ url, l.url target source o = .ok url → ∃ path, l.pathOf r explicit = .ok path ∧
      l.Says r explicit path o (.ofUrl url.toList)) ∧
    (source.unfiltered? = none → ∀ path, l.pathOf r explicit = .ok path →
      ∃ url, l.url target source o = .ok url) := by
  have hsound : r.TemplateSound :=
    Table.forall_routes_of_draw (fun _ _ _ _ => Route.templateSound_of_build) hdraw r
      (mem_of_select hselect)
  refine ⟨fun url hurl => ?_, fun hsource path hpath => ?_⟩
  · have hsource : source.unfiltered? = none := by
      cases h : source.unfiltered? with
      | none => rfl
      | some keys => simp [Linker.url, h] at hurl
    rw [url_of_select honly hsource hselect] at hurl
    obtain ⟨path, hpath, rfl⟩ := map_eq_ok.1 (mapError_eq_ok.1 hurl)
    have hplain : NoDivider path.toList := by
      rw [text_of_pathOf hsound hpath]
      exact noDivider_emit _ _ hliteral
    rw [String.toList_ofList]
    exact ⟨path, hpath, says_ofUrl hscript hplain⟩
  · rw [url_of_select honly hsource hselect, hpath]
    exact ⟨_, rfl⟩

def shopPosts : Entries Unit :=
  .route { path := "/posts/:id", name := some "post", target := some "posts#show" } .done

/-- Values with the marks that part a URL, for the path and for the query. -/
def marked : Params :=
  .ofList [("id", "a?b#c"), ("q&r", "1=1 #+?"), ("action", "show"), ("host", "x")]

def markedOptions : LinkOptions :=
  { onlyPath := true, anchor := some "x#y?z w", scriptName := some "/shop/", trailingSlash := true }

/-- Every mark that a value or the anchor brings is escaped, or stands where it ends nothing. -/
theorem url_components_shopPosts :
    ∃ (t : Table Unit) (r : Route Unit) (path : String), Table.draw shopPosts {} = .ok t ∧
      t.route? "post" = some r ∧
      Linker.url { table := t, defaults := {}, optimize := true } (.named "post")
          (.keyed marked) markedOptions =
        .ok "/shop/posts/a%3Fb%23c/?q%26r=1%3D1+%23%2B%3F#x%23y?z%20w" ∧
      Linker.Says { table := t, defaults := {}, optimize := true } r marked path markedOptions
        (.ofUrl "/shop/posts/a%3Fb%23c/?q%26r=1%3D1+%23%2B%3F#x%23y?z%20w".toList) := by
  have hcheck : ((Table.draw shopPosts {}).toOption.bind fun t => (t.route? "post").filter fun r =>
      decide (NoDivider r.pattern.segments.literalText)).isSome = true := by
    decide +kernel
  have hurl : ((Table.draw shopPosts {}).toOption.bind fun t =>
      (Linker.url { table := t, defaults := {}, optimize := true } (.named "post")
        (.keyed marked) markedOptions).toOption) =
          some "/shop/posts/a%3Fb%23c/?q%26r=1%3D1+%23%2B%3F#x%23y?z%20w" := by
    decide +kernel
  obtain ⟨t, r, hdraw, hroute, hliteral⟩ := Table.exists_route_of_filter hcheck
  have hmade := toOption_eq_some.1 (eq_some_of_bind_toOption hdraw hurl)
  have hscript : NoDivider "/shop/".toList := by decide +kernel
  obtain ⟨hfound, -⟩ := url_components
    (l := { table := t, defaults := {}, optimize := true }) (o := markedOptions)
    hdraw (select_named hroute (.keyed marked)) rfl (of_decide_eq_true hliteral) hscript
  obtain ⟨path, -, hsays⟩ := hfound _ hmade
  exact ⟨t, r, path, hdraw, hroute, hmade, hsays⟩

end Linker

end RouteEngine
