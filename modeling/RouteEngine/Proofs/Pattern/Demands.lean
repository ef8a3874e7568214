import RouteEngine.Proofs.Pattern.Aligned
import RouteEngine.Proofs.Pattern.Mentions
import RouteEngine.Proofs.Pattern.RoundTrip

/-!
Names that a pattern demands. A name that is mentioned outside all groups is required, and then
every match goes along a walk on which a capture of the name stands for a text of the path; that
is so exactly for these names (`demands_iff`). So what a pattern text ends in says something about
the pattern as a whole: a capture at the very end stands in no group, for the parentheses in front
of it are balanced (`demands_of_suffix`).
-/

namespace RouteEngine

open Outcome
open Text (isNameChar)

namespace Segments

theorem directCaptures_mapCaptures (f : Capture → Capture) (s : Segments) :
    (s.mapCaptures f).directCaptures = s.directCaptures.map f := by
  induction s with
  | done => rfl
  | literal _ next ih => exact ih
  | capture c next ih => simp only [mapCaptures, directCaptures, List.map_cons, ih]
  | group _ next _ ih => exact ih

theorem filter_occurrences_optional (s : Segments) :
    (s.occurrences true).filter (fun o => !o.optional) = [] := by
  induction s with
  | done => rfl
  | literal _ next ih => exact ih
  | capture c next ih => exact ih
  | group inner next ihInner ihNext =>
      rw [occurrences, List.filter_append, ihInner, ihNext, List.append_nil]

theorem map_filter_occurrences (s : Segments) :
    ((s.occurrences false).filter fun o => !o.optional).map (·.capture) = s.directCaptures := by
  induction s with
  | done => rfl
  | literal _ next ih => exact ih
  | capture c next ih => exact congrArg (c :: ·) ih
  | group inner next _ ih =>
      rw [occurrences, List.filter_append, filter_occurrences_optional, List.nil_append]
      exact ih

end Segments

namespace Pattern

variable {source name : String} {requirements : Dict String} {anchored : Bool} {p : Pattern}
  {l m : List Char}

theorem requiredNames_of_parseTree {tree : Segments} (h : parseTree source = .ok tree) :
    tree.requiredNames =
      ((mentions 0 source.toList).filter fun m => !m.optional).map (·.name) := by
  rw [← occurrences_of_parseTree h, List.filter_map, List.map_map, Segments.requiredNames,
    ← Segments.map_filter_occurrences, List.map_map]
  rfl

theorem parseTree_of_compile (hp : compile source requirements anchored = .ok p) :
    ∃ tree, parseTree source = .ok tree ∧ p.segments = requireAll requirements tree := by
  obtain ⟨tree, _, _, htree, -, -, hsegments, -⟩ := compile_eq_ok hp
  exact ⟨tree, (readTree_eq_ok.1 htree).1, hsegments⟩

theorem requiredNames_of_compile (hp : compile source requirements anchored = .ok p) :
    p.requiredNames = ((mentions 0 source.toList).filter fun m => !m.optional).map (·.name) := by
  obtain ⟨tree, htree, hsegments⟩ := parseTree_of_compile hp
  rw [← requiredNames_of_parseTree htree, requiredNames, Segments.requiredNames, hsegments,
    requireAll, Segments.directCaptures_mapCaptures, List.map_map]
  exact List.map_congr_left fun c _ => name_requireCapture _ c

theorem mem_requiredNames_iff (hp : compile source requirements anchored = .ok p) :
    name ∈ p.requiredNames ↔ ∃ kind, ⟨kind, name, false⟩ ∈ mentions 0 source.toList := by
  rw [requiredNames_of_compile hp, List.mem_map]
  constructor
  · rintro ⟨⟨kind, name, optional⟩, hm, rfl⟩
    obtain ⟨hm, hoptional⟩ := List.mem_filter.1 hm
    simp only [Bool.not_eq_true'] at hoptional
    exact ⟨kind, hoptional ▸ hm⟩
  · rintro ⟨kind, hm⟩
    exact ⟨_, List.mem_filter.2 ⟨hm, rfl⟩, rfl⟩

theorem mem_names_iff (hp : compile source requirements anchored = .ok p) :
    name ∈ p.names ↔ ∃ m ∈ mentions 0 source.toList, m.name = name := by
  obtain ⟨tree, htree, hsegments⟩ := parseTree_of_compile hp
  rw [Pattern.names, hsegments, requireAll, Segments.names_mapCaptures (name_requireCapture _),
    names_of_parseTree htree, Names.mem_distinct, List.mem_map]

/-! ### Matches -/

/-- Every match of a pattern goes along a walk on which its captures stand for texts that their
expressions take up. -/
theorem exists_walk_of_matchPath (hp : compile source requirements anchored = .ok p)
    {path rest : String} {params : Params} (h : p.matchPath path = some ⟨params, rest⟩) :
    ∃ w : Walk p.segments, path.toList = w.text ++ rest.toList ∧ w.Taken none rest.toList := by
  obtain ⟨hregex, hparse⟩ := compiledBy_of_compile hp
  obtain ⟨x, hx, hrest, -⟩ := mem_ends_of_matchPath hregex h
  obtain ⟨w, hw, htaken, _, -, k, hk, rfl⟩ := Walk.walk_of_mem_compiled hparse hx
  cases mem_ends_closing hk
  rw [Regex.Place.rest_advance] at hw htaken
  rw [Regex.Hit.andThen_nothing] at hrest
  exact ⟨w, hrest ▸ hw, hrest ▸ htaken⟩

/-- The name is required, and nothing is matched without a text for it. -/
structure Demands (p : Pattern) (name : String) : Prop where
  required : name ∈ p.requiredNames
  taken : ∀ path params rest, p.matchPath path = some ⟨params, rest⟩ →
    ∃ w : Walk p.segments, path.toList = w.text ++ rest.toList ∧ w.Taken none rest.toList ∧
      ∃ raw, (name, raw) ∈ w.captured

theorem demands_of_mem_requiredNames (hp : compile source requirements anchored = .ok p)
    (h : name ∈ p.requiredNames) : p.Demands name where
  required := h
  taken path params rest hmatch := by
    obtain ⟨c, hc, rfl⟩ := List.mem_map.1 h
    obtain ⟨w, hpath, htaken⟩ := exists_walk_of_matchPath hp hmatch
    obtain ⟨⟨_, raw⟩, hraw, rfl⟩ := List.mem_map.1 (w.mem_captured_of_mem_directCaptures hc)
    exact ⟨w, hpath, htaken, raw, hraw⟩

/-- A name is demanded exactly when some capture of it stands in no group. -/
theorem demands_iff (hp : compile source requirements anchored = .ok p) :
    p.Demands name ↔ ∃ kind, ⟨kind, name, false⟩ ∈ mentions 0 source.toList := by
  rw [← mem_requiredNames_iff hp]
  exact ⟨Demands.required, demands_of_mem_requiredNames hp⟩

-- Of the two captures only the one outside the group is demanded.
example : mentions 0 "/:id(.:format)".toList =
    [⟨.dynamic, "id", false⟩, ⟨.dynamic, "format", true⟩] := by
  decide +kernel

/-! ### Endings -/

/-- The groups that are open behind a text. -/
def openBehind (depth : Nat) : List Char → Nat
  | [] => depth
  | c :: r =>
    openBehind (if c = '(' then depth + 1 else if c = ')' then depth - 1 else depth) r

/-- A text may be cut in front of anything that does not go on with a name. -/
theorem mentions_append (hm : ∀ c ∈ m.head?, isNameChar c = false) (depth : Nat) (l : List Char) :
    mentions depth (l ++ m) = mentions depth l ++ mentions (openBehind depth l) m := by
  have htake : ∀ r : List Char, (r ++ m).takeWhile isNameChar = r.takeWhile isNameChar := by
    intro r
    have hnone : m.takeWhile isNameChar = [] := by
      cases m with
      | nil => rfl
      | cons c m => exact List.takeWhile_cons_of_neg (by simpa using hm c rfl)
    induction r with
    | nil => exact hnone
    | cons c r ih => rw [List.cons_append, List.takeWhile_cons, List.takeWhile_cons, ih]
  induction l generalizing depth with
  | nil => rfl
  | cons c l ih =>
      rw [List.cons_append, mentions, mentions, openBehind, htake]
      split
      · exact ih (depth + 1)
      · split
        · exact ih (depth - 1)
        · split
          · rw [ih]
            rfl
          · split
            · rw [ih]
              rfl
            · exact ih depth

theorem openBehind_add_count {depth : Nat}
    (h : ∀ before, before <+: l → before.count ')' ≤ depth + before.count '(') :
    openBehind depth l + l.count ')' = depth + l.count '(' := by
  induction l generalizing depth with
  | nil => rfl
  | cons c l ih =>
      have hbehind : ∀ before, before <+: l →
          (c :: before).count ')' ≤ depth + (c :: before).count '(' := fun before hbefore =>
        h (c :: before) (List.cons_prefix_cons.2 ⟨rfl, hbefore⟩)
      rw [openBehind]
      by_cases hopen : c = '('
      · subst hopen
        have hcount : ∀ r, ('(' :: r).count ')' = r.count ')' ∧
            ('(' :: r).count '(' = r.count '(' + 1 := fun r =>
          ⟨List.count_cons_of_ne (by decide), List.count_cons_self⟩
        simp only [hcount, if_true] at hbehind ⊢
        have hrest := @ih (depth + 1) fun before hbefore => by
          have hle := hbehind before hbefore
          omega
        omega
      by_cases hclose : c = ')'
      · subst hclose
        have hcount : ∀ r, (')' :: r).count ')' = r.count ')' + 1 ∧
            (')' :: r).count '(' = r.count '(' := fun r =>
          ⟨List.count_cons_self, List.count_cons_of_ne (by decide)⟩
        simp only [hcount, if_neg hopen, if_true] at hbehind ⊢
        have hsome := hbehind [] List.nil_prefix
        have hrest := @ih (depth - 1) fun before hbefore => by
          have hle := hbehind before hbefore
          omega
        simp only [List.count_nil] at hsome
        omega
      · have hcount : ∀ r, (c :: r).count ')' = r.count ')' ∧ (c :: r).count '(' = r.count '(' :=
          fun r => ⟨List.count_cons_of_ne hclose, List.count_cons_of_ne hopen⟩
        simp only [hcount, if_neg hopen, if_neg hclose] at hbehind ⊢
        exact ih hbehind

/-- Behind a text that is completed to a balanced one without parentheses no group is open. -/
theorem openBehind_of_balanced (h : Balanced (l ++ m)) (hopen : '(' ∉ m) (hclose : ')' ∉ m) :
    openBehind 0 l = 0 := by
  have hcount := @openBehind_add_count l 0 fun before hbefore => by
    simpa using h.2 before (hbefore.trans (List.prefix_append l m))
  have htotal := h.1
  rw [List.count_append, List.count_append, List.count_eq_zero_of_not_mem hopen,
    List.count_eq_zero_of_not_mem hclose] at htotal
  omega

theorem mem_mentions_of_suffix {e : List Char} (he : e <:+ l)
    (hhead : ∀ c ∈ e.head?, isNameChar c = false) :
    ∃ depth, ∀ m ∈ mentions depth e, m ∈ mentions 0 l := by
  obtain ⟨l, rfl⟩ := he
  refine ⟨openBehind 0 l, fun m hm => ?_⟩
  rw [mentions_append hhead]
  exact List.mem_append_right _ hm

/-- A capture at the end of the text has a name of the pattern. -/
theorem mem_names_of_suffix (hp : compile source requirements anchored = .ok p) {e : List Char}
    (he : e <:+ source.toList) (hhead : ∀ c ∈ e.head?, isNameChar c = false)
    (hname : ∀ depth, ∃ m ∈ mentions depth e, m.name = name) : name ∈ p.names := by
  obtain ⟨depth, hall⟩ := mem_mentions_of_suffix he hhead
  obtain ⟨m, hm, rfl⟩ := hname depth
  exact (mem_names_iff hp).2 ⟨m, hall m hm, rfl⟩

/-- A capture at the end of the text that no parenthesis follows is demanded. -/
theorem demands_of_suffix (hp : compile source requirements anchored = .ok p) {e : List Char}
    (he : e <:+ source.toList) (hhead : ∀ c ∈ e.head?, isNameChar c = false) (hopen : '(' ∉ e)
    (hclose : ')' ∉ e) {kind : CaptureKind} (hname : ⟨kind, name, false⟩ ∈ mentions 0 e) :
    p.Demands name := by
  obtain ⟨tree, htree, -⟩ := parseTree_of_compile hp
  obtain ⟨l, hl⟩ := he
  have hbalanced : Balanced (l ++ e) := hl ▸ (exists_parseTree_iff.1 ⟨tree, htree⟩).1
  refine (demands_iff hp).2 ⟨kind, ?_⟩
  rw [← hl, mentions_append hhead, openBehind_of_balanced hbalanced hopen hclose]
  exact List.mem_append_right _ hname

end Pattern

end RouteEngine
