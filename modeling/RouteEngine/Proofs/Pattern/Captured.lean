import RouteEngine.Pattern.Matching
import RouteEngine.Proofs.Dict
import RouteEngine.Proofs.Pattern.Preferred

/-!
What a match leaves, in terms of its walk. The matcher looks up the groups of the captures by
their numbers; along a walk these are just the texts of the captures that take part, in the order
of the pattern (`collect_walk`). With that, a match that is found has a walk whose texts are
gathered into its values (`walk_of_matchPath`), and a walk that leads the engine is the one that
is found (`matchPath_of_leads`).
-/

namespace RouteEngine

open Regex

/-! ### The groups of a walk -/

namespace Walk

variable {s : Segments} {count : Capture → Nat} {first index : Nat} {spans : List Span}

/-- The captures with the numbers of their groups, each with its text if it takes part. -/
def places (count : Capture → Nat) (first : Nat) {s : Segments} :
    Walk s → List ((Capture × Nat) × Option (List Char))
  | done => []
  | literal _ w => w.places count first
  | capture c raw w => ((c, first), some raw) :: w.places count (first + count c)
  | @entered inner _ i w =>
    i.places count first ++ w.places count (first + inner.numbersBy count)
  | skipped inner w =>
    (inner.numberedBy count first).map (·, none) ++ w.places count (first + inner.numbersBy count)

theorem map_fst_places (w : Walk s) :
    (w.places count first).map (·.1) = s.numberedBy count first := by
  induction w generalizing first with
  | done => rfl
  | literal _ w ih => exact ih
  | capture c raw w ih => rw [places, List.map_cons, ih, Segments.numberedBy]
  | entered i w ihInner ihNext => rw [places, List.map_append, ihInner, ihNext, Segments.numberedBy]
  | skipped inner w ih =>
      rw [places, List.map_append, ih, Segments.numberedBy, List.map_map]
      congr 1
      exact List.map_id' _

theorem filterMap_places (w : Walk s) :
    (w.places count first).filterMap (fun e => e.2.map (e.1.1.name, ·)) = w.captured := by
  induction w generalizing first with
  | done => rfl
  | literal _ w ih => exact ih
  | capture c raw w ih => simp only [places, List.filterMap_cons, Option.map_some, ih, captured]
  | entered i w ihInner ihNext => rw [places, List.filterMap_append, ihInner, ihNext, captured]
  | skipped inner w ih =>
      have hnone : ((inner.numberedBy count first).map (·, none)).filterMap
          (fun e : (Capture × Nat) × Option (List Char) => e.2.map (e.1.1.name, ·)) = [] := by
        simp
      rw [places, List.filterMap_append, hnone, ih, captured, List.nil_append]

/-- The spans of a match along the walk from `index` on: each capture that takes part closes its
group, and before that groups inside it. -/
def Closes (count : Capture → Nat) {s : Segments} :
    Walk s → (first index : Nat) → List Span → Prop
  | done, _, _, spans => spans = []
  | literal text w, first, index, spans => w.Closes count first (index + text.toList.length) spans
  | capture c raw w, first, index, spans =>
    ∃ inside rest, spans = inside ++ [⟨first, index, index + raw.length⟩] ++ rest ∧
      (∀ sp ∈ inside, first < sp.group ∧ sp.group < first + count c) ∧
      w.Closes count (first + count c) (index + raw.length) rest
  | @entered inner _ i w, first, index, spans =>
    ∃ here rest, spans = here ++ rest ∧ i.Closes count first index here ∧
      w.Closes count (first + inner.numbersBy count) (index + i.text.length) rest
  | skipped inner w, first, index, spans =>
    w.Closes count (first + inner.numbersBy count) index spans

theorem Closes.bounds {w : Walk s} (h : w.Closes count first index spans)
    (hcount : ∀ c, 0 < count c) :
    ∀ sp ∈ spans, first ≤ sp.group ∧ sp.group < first + s.numbersBy count := by
  induction w generalizing first index spans with
  | done =>
      obtain rfl : spans = [] := h
      simp
  | literal text w ih => exact ih h
  | capture c raw w ih =>
      obtain ⟨inside, rest, rfl, hinside, hrest⟩ := h
      have hpos := hcount c
      intro sp hsp
      rw [Segments.numbersBy]
      rcases List.mem_append.1 hsp with hsp | hsp
      · rcases List.mem_append.1 hsp with hsp | hsp
        · have hbounds := hinside sp hsp
          omega
        · obtain rfl := List.mem_singleton.1 hsp
          exact ⟨Nat.le_refl _, by simp only; omega⟩
      · have hbounds := ih hrest sp hsp
        omega
  | entered i w ihInner ihNext =>
      obtain ⟨here, rest, rfl, hhere, hrest⟩ := h
      intro sp hsp
      rw [Segments.numbersBy]
      rcases List.mem_append.1 hsp with hsp | hsp
      · have hbounds := ihInner hhere sp hsp
        omega
      · have hbounds := ihNext hrest sp hsp
        omega
  | skipped inner w ih =>
      intro sp hsp
      have hbounds := ih h sp hsp
      rw [Segments.numbersBy]
      omega

theorem slice_of_drop {path raw post : List Char} (h : path.drop index = raw ++ post) :
    slice path index (index + raw.length) = raw := by
  rw [slice, List.drop_take, h, Nat.add_sub_cancel_left, List.take_left]

theorem drop_of_drop {path raw post : List Char} (h : path.drop index = raw ++ post) :
    path.drop (index + raw.length) = post := by
  rw [← List.drop_drop, h, List.drop_left]

/-- The last span of a group. -/
def lastSpan (spans : List Span) (g : Nat) : Option Span := spans.findRev? fun sp => sp.group = g

theorem lastSpan_append (l m : List Span) (g : Nat) :
    lastSpan (l ++ m) g = (lastSpan m g).or (lastSpan l g) := by
  simp only [lastSpan, List.findRev?_eq_find?_reverse, List.reverse_append, List.find?_append]

theorem lastSpan_eq_none {l : List Span} {g : Nat} (h : ∀ sp ∈ l, sp.group ≠ g) :
    lastSpan l g = none := by
  rw [lastSpan, List.findRev?_eq_find?_reverse, List.find?_eq_none]
  simpa using h

/-- Looking up the group of a capture among the spans gives the text of that capture. -/
theorem Closes.map_slice {w : Walk s} (h : w.Closes count first index spans)
    (hcount : ∀ c, 0 < count c) {path post : List Char}
    (hpath : path.drop index = w.text ++ post) :
    ∀ e ∈ w.places count first,
      (lastSpan spans e.1.2).map (fun sp => slice path sp.first sp.last) = e.2 := by
  -- Each capture has numbers of its own, so the spans of the others do not matter.
  induction w generalizing first index spans post with
  | done => simp [places]
  | literal text w ih =>
      rw [Walk.text, List.append_assoc] at hpath
      exact ih h (drop_of_drop hpath)
  | capture c raw w ih =>
      obtain ⟨inside, rest, rfl, hinside, hrest⟩ := h
      have hpos := hcount c
      rw [Walk.text, List.append_assoc] at hpath
      refine List.forall_mem_cons.2 ⟨?_, fun e he => ?_⟩
      · have hnone : lastSpan rest first = none :=
          lastSpan_eq_none fun sp hsp => by
            have hbounds := hrest.bounds hcount sp hsp
            omega
        rw [lastSpan_append, hnone, lastSpan_append]
        simp [lastSpan, List.findRev?, slice_of_drop hpath]
      · have hnumber := Segments.bounds_of_mem_numberedBy hcount
          (map_fst_places w ▸ List.mem_map_of_mem he)
        have hnone : lastSpan (inside ++ [⟨first, index, index + raw.length⟩]) e.1.2 = none := by
          refine lastSpan_eq_none fun sp hsp => ?_
          rcases List.mem_append.1 hsp with hsp | hsp
          · have hbounds := hinside sp hsp
            omega
          · obtain rfl := List.mem_singleton.1 hsp
            simp only
            omega
        rw [lastSpan_append, hnone, Option.or_none]
        exact ih hrest (drop_of_drop hpath) e he
  | @entered inner next i w ihInner ihNext =>
      obtain ⟨here, rest, rfl, hhere, hrest⟩ := h
      rw [Walk.text, List.append_assoc] at hpath
      intro e he
      rw [lastSpan_append]
      rcases List.mem_append.1 he with he | he
      · have hnumber := Segments.bounds_of_mem_numberedBy hcount
          (map_fst_places i ▸ List.mem_map_of_mem he)
        have hnone : lastSpan rest e.1.2 = none :=
          lastSpan_eq_none fun sp hsp => by
            have hbounds := hrest.bounds hcount sp hsp
            omega
        rw [hnone, Option.none_or]
        exact ihInner hhere hpath e he
      · have hnumber := Segments.bounds_of_mem_numberedBy hcount
          (map_fst_places w ▸ List.mem_map_of_mem he)
        have hnone : lastSpan here e.1.2 = none :=
          lastSpan_eq_none fun sp hsp => by
            have hbounds := hhere.bounds hcount sp hsp
            omega
        rw [hnone, Option.or_none]
        exact ihNext hrest (drop_of_drop hpath) e he
  | @skipped inner next w ih =>
      intro e he
      rcases List.mem_append.1 he with he | he
      · obtain ⟨e, hmem, rfl⟩ := List.mem_map.1 he
        have hnumber := Segments.bounds_of_mem_numberedBy hcount hmem
        have hnone : lastSpan spans e.2 = none :=
          lastSpan_eq_none fun sp hsp => by
            have hbounds := Closes.bounds (w := w) h hcount sp hsp
            omega
        rw [hnone]
        rfl
      · exact ih h hpath e he

/-! ### Walks without requirements -/

theorem numbersBy_one (s : Segments) : s.numbersBy (fun _ => 1) = s.captureCount := by
  induction s with
  | done => rfl
  | literal _ next ih => exact ih
  | capture c next ih => rw [Segments.numbersBy, Segments.captureCount, ih, Nat.add_comm]
  | group inner next ihInner ihNext =>
      rw [Segments.numbersBy, Segments.captureCount, ihInner, ihNext]

theorem slotsFrom_eq (s : Segments) (first : Nat) :
    s.slotsFrom first = (s.numberedBy (fun _ => 1) first).map fun e => ⟨e.1.name, e.2⟩ := by
  induction s generalizing first with
  | done => rfl
  | literal _ next ih => exact ih first
  | capture c next ih => rw [Segments.slotsFrom, ih, Segments.numberedBy, List.map_cons]
  | group inner next ihInner ihNext =>
      rw [Segments.slotsFrom, ihInner, ihNext, Segments.numberedBy, List.map_append, numbersBy_one]

theorem closes_spans (w : Walk s) : w.Closes (fun _ => 1) first index (w.spans first index) := by
  induction w generalizing first index with
  | done => rfl
  | literal text w ih => exact ih
  | capture c raw w ih => exact ⟨[], _, rfl, by simp, ih⟩
  | @entered inner _ i w ihInner ihNext =>
      refine ⟨_, _, rfl, ihInner, ?_⟩
      rw [numbersBy_one]
      exact ihNext
  | skipped inner w ih =>
      rw [Closes, numbersBy_one]
      exact ih

end Walk

/-! ### Gathering values -/

namespace Pattern

/-- Reads texts into values one after another; a name met again has to stand for the same. -/
def gather : List (String × List Char) → Params → Option Params
  | [], params => some params
  | (name, raw) :: rest, params =>
    match Escape.unescapeChars raw with
    | none => none
    | some value =>
      match params.get? name with
      | some known => if known = String.ofList value then gather rest params else none
      | none => gather rest (params.insert name (String.ofList value))

variable {s : Segments} {found : Found} {path : List Char}

/-- The texts of the slots that take part, each with its name. -/
def slotTexts (found : Found) (path : List Char) (slots : List Slot) : List (String × List Char) :=
  slots.filterMap fun s => (found.group? path s.group).map (s.name, ·)

/-- Reading slots gathers their texts. -/
theorem collect_eq_gather (slots : List Slot) (params : Params) :
    collect found path slots params = gather (slotTexts found path slots) params := by
  induction slots generalizing params with
  | nil => rfl
  | cons s slots ih =>
      rw [collect, slotTexts, List.filterMap_cons]
      cases found.group? path s.group with
      | none => exact ih params
      | some raw =>
          simp only [Option.map_some, gather]
          cases Escape.unescapeChars raw with
          | none => rfl
          | some value =>
              simp only
              cases params.get? s.name with
              | none => exact ih _
              | some known =>
                  simp only
                  split
                  · exact ih _
                  · rfl

/-- Reading the slots of captures gathers the texts of those that take part. -/
theorem collect_places {places : List ((Capture × Nat) × Option (List Char))}
    (h : ∀ e ∈ places, found.group? path e.1.2 = e.2) (params : Params) :
    collect found path (places.map fun e => ⟨e.1.1.name, e.1.2⟩) params =
      gather (places.filterMap fun e => e.2.map (e.1.1.name, ·)) params := by
  rw [collect_eq_gather, slotTexts, List.filterMap_map]
  congr 1
  exact List.filterMap_congr fun e he => congrArg (Option.map (e.1.1.name, ·)) (h e he)

/-- The slots of a pattern are read along the walk of a match. -/
theorem collect_walk {count : Capture → Nat} (hcount : ∀ c, 0 < count c) {w : Walk s}
    {spans : List Span} {length : Nat} (hspans : w.Closes count 1 0 spans) {post : List Char}
    (hpath : path = w.text ++ post) (params : Params) :
    collect ⟨0, length, spans⟩ path ((s.numberedBy count 1).map fun e => ⟨e.1.name, e.2⟩) params =
      gather w.captured params := by
  have hdrop : path.drop 0 = w.text ++ post := hpath
  have hplaces : ∀ e ∈ w.places count 1, Found.group? ⟨0, length, spans⟩ path e.1.2 = e.2 :=
    hspans.map_slice hcount hdrop
  rw [← w.map_fst_places, List.map_map, ← w.filterMap_places]
  exact collect_places hplaces params

/-! ### What is gathered -/

theorem gather_cons_eq_some {name : String} {raw : List Char} {rest : List (String × List Char)}
    {params all : Params} (h : gather ((name, raw) :: rest) params = some all) :
    ∃ value more, Escape.unescapeChars raw = some value ∧ gather rest more = some all ∧
      more.get? name = some (String.ofList value) ∧
      (∀ n, n ≠ name → more.get? n = params.get? n) ∧
      ∀ known, params.get? name = some known → known = String.ofList value := by
  rw [gather] at h
  split at h
  · simp at h
  · next value hvalue =>
      split at h
      · next known hknown =>
          split at h
          · next heq =>
              subst heq
              exact ⟨value, params, hvalue, h, hknown, fun _ _ => rfl, by simp [hknown]⟩
          · simp at h
      · next hnone =>
          refine ⟨value, _, hvalue, h, by simp, fun n hn => ?_, by simp [hnone]⟩
          rw [Dict.get?_insert, if_neg (Ne.symm hn)]

theorem get?_of_gather {l : List (String × List Char)} {params all : Params}
    (h : gather l params = some all) {n v : String} (hn : params.get? n = some v) :
    all.get? n = some v := by
  induction l generalizing params with
  | nil =>
      cases h
      exact hn
  | cons e l ih =>
      obtain ⟨name, raw⟩ := e
      obtain ⟨value, more, -, hrest, hhere, hother, hknown⟩ := gather_cons_eq_some h
      by_cases hname : n = name
      · subst hname
        exact ih hrest (hknown v hn ▸ hhere)
      · exact ih hrest ((hother n hname).trans hn)

theorem get?_of_gather_of_mem {l : List (String × List Char)} {params all : Params}
    (h : gather l params = some all) {n : String} {raw : List Char} (hn : (n, raw) ∈ l) :
    ∃ value, Escape.unescapeChars raw = some value ∧
      all.get? n = some (String.ofList value) := by
  induction l generalizing params with
  | nil => simp at hn
  | cons e l ih =>
      obtain ⟨name, text⟩ := e
      obtain ⟨value, more, hvalue, hrest, hhere, -, -⟩ := gather_cons_eq_some h
      rcases List.mem_cons.1 hn with heq | hn
      · cases heq
        exact ⟨value, hvalue, get?_of_gather hrest hhere⟩
      · exact ih hrest hn

theorem get?_of_gather_of_not_mem {l : List (String × List Char)} {params all : Params}
    (h : gather l params = some all) {n : String} (hn : n ∉ l.map (·.1)) :
    all.get? n = params.get? n := by
  induction l generalizing params with
  | nil =>
      cases h
      rfl
  | cons e l ih =>
      obtain ⟨name, raw⟩ := e
      obtain ⟨value, more, -, hrest, -, hother, -⟩ := gather_cons_eq_some h
      rw [List.map_cons, List.mem_cons, not_or] at hn
      rw [ih hrest hn.2, hother n hn.1]

/-- Texts that stand for the values of one dictionary never disagree. -/
theorem exists_gather {l : List (String × List Char)} {values params : Params}
    (hl : ∀ e ∈ l, ∃ value, Escape.unescapeChars e.2 = some value ∧
      values.get? e.1 = some (String.ofList value))
    (hparams : ∀ n v, params.get? n = some v → values.get? n = some v) :
    ∃ all, gather l params = some all := by
  induction l generalizing params with
  | nil => exact ⟨params, rfl⟩
  | cons e l ih =>
      obtain ⟨name, raw⟩ := e
      obtain ⟨⟨value, hraw, hvalue⟩, hrest⟩ := List.forall_mem_cons.1 hl
      simp only [gather, hraw]
      cases hknown : params.get? name with
      | some known =>
          have heq : known = String.ofList value := by
            simpa [hvalue, eq_comm] using hparams name known hknown
          simp only [heq, if_true]
          exact ih hrest hparams
      | none =>
          refine ih hrest fun n v hn => ?_
          rw [Dict.get?_insert] at hn
          split at hn
          · next heq =>
              cases hn
              exact heq ▸ hvalue
          · exact hparams n v hn

/-- Texts that stand for the values of one dictionary, with all its keys among their names, are
gathered into it. -/
theorem gather_eq_some {l : List (String × List Char)} {values : Params}
    (hl : ∀ e ∈ l, ∃ value, Escape.unescapeChars e.2 = some value ∧
      values.get? e.1 = some (String.ofList value))
    (hkeys : ∀ n ∈ values.keys, n ∈ l.map (·.1)) : gather l .empty = some values := by
  have hempty : ∀ n v, (Dict.empty : Params).get? n = some v → values.get? n = some v := by simp
  obtain ⟨all, hall⟩ := exists_gather hl hempty
  have heq : all = values := by
    refine Dict.ext_get? fun n => ?_
    by_cases hn : n ∈ l.map (·.1)
    · obtain ⟨⟨name, raw⟩, hmem, rfl⟩ := List.mem_map.1 hn
      obtain ⟨value, hraw, hvalue⟩ := get?_of_gather_of_mem hall hmem
      obtain ⟨value', hraw', hvalue'⟩ := hl _ hmem
      rw [hraw] at hraw'
      cases hraw'
      rw [hvalue, hvalue']
    · have hnone : values.get? n = none := by
        cases hget : values.get? n with
        | none => rfl
        | some v => exact absurd (hkeys n (Dict.mem_keys.2 (by simp [Dict.contains, hget]))) hn
      rw [get?_of_gather_of_not_mem hall hn, hnone, Dict.get?_empty]
  rw [hall, heq]

/-! ### Matching a pattern -/

variable {source : String} {anchored : Bool} {p : Pattern}

theorem run_closing {q : Place} {next : Place → Option Hit} :
    run (closing anchored) q next = if anchored = true ∧ q.rest ≠ [] then none else next q := by
  cases anchored with
  | false => simp [closing, run_empty]
  | true =>
      rw [closing, if_pos rfl, run_concat, run_look_textEnd]
      by_cases hq : q.rest = [] <;> simp [hq, run_empty]

theorem mem_ends_closing {q : Place} {h : Hit} (hh : h ∈ ends (closing anchored) q) :
    h = nothing := by
  cases anchored with
  | false => simpa [closing] using hh
  | true =>
      obtain ⟨x, hx, y, hy, rfl⟩ := mem_ends_concat hh
      rw [ends_look] at hx
      rw [ends_empty] at hy
      split at hx
      · rw [List.mem_singleton.1 hx, List.mem_singleton.1 hy, Hit.andThen_nothing]
      · simp at hx

theorem collect_slots (hp : p.Plain source anchored) (w : Walk p.segments) {path post : List Char}
    (hpath : path = w.text ++ post) :
    collect ⟨0, w.hit 1 0⟩ path p.slots .empty = gather w.captured .empty := by
  rw [hp.slots, Walk.slotsFrom_eq]
  exact collect_walk (fun _ => Nat.one_pos) w.closes_spans hpath .empty

/-- What a match leaves is read off one of the matches of the expression at the start. -/
theorem mem_ends_of_matchPath {r : Regex} (hregex : p.regex = .concat (.look .textStart) r)
    {path rest : String} {params : Params} (h : p.matchPath path = some ⟨params, rest⟩) :
    ∃ x ∈ ends r (.start path.toList), rest.toList = path.toList.drop x.length ∧
      collect ⟨0, x⟩ path.toList p.slots .empty = some params := by
  rw [matchPath] at h
  simp only at h
  split at h
  · simp at h
  · next found hfound =>
      rw [hregex, search_textStart, Option.map_eq_some_iff] at hfound
      obtain ⟨x, hx, rfl⟩ := hfound
      obtain ⟨x, hmem, y, hy, rfl⟩ := run_eq_some hx
      cases hy
      rw [Hit.andThen_nothing] at h
      split at h
      · simp at h
      · obtain ⟨all, hall, heq⟩ := Option.map_eq_some_iff.1 h
        cases heq
        exact ⟨x, hmem, by simp [Found.last], hall⟩

/-- Every match of the pattern goes along a walk of its tree. -/
theorem walk_of_matchPath (hp : Plain source anchored p) {path rest : String} {params : Params}
    (h : p.matchPath path = some ⟨params, rest⟩) :
    ∃ w : Walk p.segments, w.Fits ∧ path.toList = w.text ++ rest.toList ∧
      gather w.captured .empty = some params := by
  obtain ⟨x, hx, hrest, hcollect⟩ := mem_ends_of_matchPath hp.regex h
  obtain ⟨w, hfits, hw, k, hk, rfl⟩ := Walk.walk_of_mem_ends hx
  cases mem_ends_closing hk
  rw [Hit.andThen_nothing] at hrest hcollect
  rw [Place.rest_advance] at hw
  have hpath : path.toList = w.text ++ path.toList.drop w.text.length := hw
  exact ⟨w, hfits, hrest ▸ hpath, (collect_slots hp w hpath).symm.trans hcollect⟩

/-- A walk that leads the engine is the match, when a pattern that is not anchored may stop where
the walk ends. -/
theorem matchPath_of_leads_tail (hp : Plain source anchored p) {w : Walk p.segments}
    {tail : List Char} (hw : w.Leads tail (anchored = true))
    (htail : tail = [] ∨ anchored = false ∧ tail.head? = some '/') {path : String}
    (hpath : path.toList = w.text ++ tail) :
    p.matchPath path =
      (gather w.captured .empty).map fun params => ⟨params, String.ofList tail⟩ := by
  have hclosing : ∀ q : Place, run (closing anchored) q (fun _ => some nothing) =
      if anchored = true ∧ q.rest ≠ [] then none else some nothing := fun q => run_closing
  have hstart : (Place.start path.toList).rest = w.text ++ tail := hpath
  have hend : ((Place.start path.toList).advance w.text.length).rest = tail :=
    Place.rest_advance_append hstart
  have hgoes : ¬(anchored = true ∧ tail ≠ []) := by
    rintro ⟨hanchored, hne⟩
    rcases htail with hnil | ⟨hfalse, -⟩
    · exact hne hnil
    · simp [hanchored] at hfalse
  have hrun := w.run_expression 1 (closing anchored) hw hstart
    (fun h q hq => by rw [hclosing, if_pos ⟨h, hq⟩])
    ((hclosing _).trans (if_neg (by rwa [hend])))
  rw [Hit.andThen_nothing] at hrun
  have hlast : path.toList.drop (Found.mk 0 (w.hit 1 0)).last = tail := by
    simp [Found.last, Walk.hit, hpath]
  have hstops : (!p.anchored && !tail.isEmpty && decide (tail.head? ≠ some '/')) = false := by
    rcases htail with rfl | ⟨-, hslash⟩
    · simp
    · simp [hslash]
  have hcollect := collect_slots hp w hpath
  have hindex : (Place.start path.toList).index = 0 := rfl
  simp only [matchPath, hp.regex, search_textStart, hrun, Option.map_some, hindex, hlast, hcollect,
    hstops, Bool.false_eq_true, if_false]

/-- A walk along the whole path that leads the engine is the match. -/
theorem matchPath_of_leads (hp : Plain source anchored p) {w : Walk p.segments}
    (hw : w.Leads [] (anchored = true)) {path : String} (hpath : path.toList = w.text) :
    p.matchPath path = (gather w.captured .empty).map fun params => ⟨params, ""⟩ :=
  matchPath_of_leads_tail hp hw (.inl rfl) (hpath.trans (List.append_nil _).symm)

end Pattern

end RouteEngine
