import RouteEngine.Proofs.Pattern.Filling
import RouteEngine.Proofs.Pattern.Language
import RouteEngine.Proofs.Regex.Cut

/-!
Prefixes of paths. A pattern that is not anchored has to stop where a segment ends, but the engine
has chosen the prefix before anybody asks where it ends. What it takes is always a path of the
anchored pattern. A path of the anchored pattern, though, is taken only when the engine prefers it
to every other prefix: so it is for texts and single segments, which end where a segment does
(`matchPath_append_of_plain`), and for any pattern that takes the path when nothing follows and has
no longer prefix to choose (`matchPath_append`). In general it is not.
-/

namespace RouteEngine

open Outcome Regex

/-- A path is cut here between two segments, or not at all. -/
def Continues (rest : List Char) : Prop := rest = [] ∨ rest.head? = some '/'

theorem Continues.isWordAt {rest : List Char} (h : Continues rest) (ascii : Bool) :
    isWordAt ascii rest.head? = false := by
  rcases h with rfl | h
  · rfl
  · rw [h]
    cases ascii <;> decide

theorem Continues.ne_newline {rest : List Char} (h : Continues rest) :
    rest.head? ≠ some '\n' := by
  rcases h with rfl | h
  · simp
  · rw [h]
    decide

/-! ### One expression, with and without an end -/

namespace Segments

variable {count : Capture → Nat} {s : Segments} {first : Nat} {after : Regex} {p : Place}
  {next : Place → Option Hit}

theorem run_textThen_after (text : List Char) :
    run (textThen text after) p next = run (textThen text .empty) p fun q => run after q next := by
  induction text generalizing p with
  | nil =>
      have hempty : run .empty p (fun q => run after q next) = run after p next := run_empty
      exact hempty.symm
  | cons c cs ih =>
      have hrest : (fun q => run (textThen cs after) q next) = fun q =>
          run (textThen cs .empty) q fun q => run after q next := funext fun q => ih
      rw [textThen, textThen, List.foldr_cons, List.foldr_cons, run_concat, run_concat]
      exact congrArg (run (.chars (.single c)) p) hrest

/-- What follows a tree goes on from the matches of the tree. -/
theorem run_compiledBy :
    run (s.compiledBy count first after) p next =
      run (s.compiledBy count first .empty) p fun q => run after q next := by
  induction s generalizing first p with
  | done =>
      have hempty : run .empty p (fun q => run after q next) = run after p next := run_empty
      exact hempty.symm
  | literal text tail ih =>
      have htail : (fun q => run (tail.compiledBy count first after) q next) = fun q =>
          run (tail.compiledBy count first .empty) q fun q => run after q next :=
        funext fun q => ih
      rw [compiledBy, compiledBy, run_textThen_after, htail]
      exact (run_textThen_after text.toList).symm
  | capture c tail ih =>
      rw [compiledBy, compiledBy, run_concat, run_concat]
      congr 1
      funext q
      exact ih
  | group inner tail _ ih =>
      rw [compiledBy, compiledBy, run_concat, run_concat]
      congr 1
      funext q
      exact ih

theorem looks_textThen (text : List Char) : (textThen text after).looks = after.looks := by
  induction text with
  | nil => rfl
  | cons c cs ih => exact ih

theorem looks_compiledBy {P : Look → Prop} (hs : s.Every fun c => ∀ l ∈ c.inside.looks, P l) :
    ∀ l ∈ (s.compiledBy count first .empty).looks, P l := by
  induction s generalizing first with
  | done => simp [compiledBy, looks]
  | literal text next ih =>
      rw [compiledBy, looks_textThen]
      exact ih hs
  | capture c next ih =>
      intro l hl
      rcases List.mem_append.1 hl with hl | hl
      · rw [Regex.looks, looks_renumber] at hl
        exact hs.1 l hl
      · exact ih hs.2 l hl
  | group inner next ihInner ihNext =>
      intro l hl
      rcases List.mem_append.1 hl with hl | hl
      · exact ihInner hs.1 l hl
      · exact ihNext hs.2 l hl

end Segments

namespace Pattern

/-! ### Captured values -/

/-- The spans of a match are the same texts when more follows. -/
theorem group?_append {found : Found} {q r : List Char}
    (h : ∀ sp ∈ found.hit.spans, sp.last ≤ q.length) (i : Nat) :
    found.group? (q ++ r) i = found.group? q i := by
  rw [Found.group?, Found.group?, List.findRev?_eq_find?_reverse]
  cases hfind : found.hit.spans.reverse.find? fun s => s.group = i with
  | none => rfl
  | some sp =>
      have hmem := List.mem_reverse.1 (List.mem_of_find?_eq_some hfind)
      simp only [Option.map_some, slice, List.take_append_of_le_length (h sp hmem)]

theorem collect_congr {found found' : Found} {path path' : List Char} {slots : List Slot}
    {params : Params} (h : ∀ i, found.group? path i = found'.group? path' i) :
    collect found path slots params = collect found' path' slots params := by
  induction slots generalizing params with
  | nil => rfl
  | cons s slots ih =>
      rw [collect, collect, h]
      simp only [ih]

theorem last_le_of_mem_ends {b : Regex} {q : List Char} {x : Hit} (hx : x ∈ ends b (.start q)) :
    ∀ sp ∈ x.spans, sp.last ≤ q.length := by
  intro sp hsp
  obtain ⟨_, before, raw, after, -, hrest, hfirst, hlast, -⟩ := located_of_mem_ends hx sp hsp
  have hq : q = before ++ raw ++ after := hrest
  have hzero : sp.first = 0 + before.length := hfirst
  rw [hlast, hzero, hq, List.length_append, List.length_append]
  omega

/-! ### The two compilations of a pattern -/

/-- The expression of the pattern without its ends. -/
def unbound (p : Pattern) : Regex := p.segments.compiledBy Capture.groupsMet 1 .empty

variable {source : String} {requirements : Dict String} {anchored : Bool} {p m a : Pattern}

theorem isMatch_of_anchored (ha : compile source requirements true = .ok a) {path : List Char} :
    a.regex.isMatch path = true ↔ Takes a.unbound none path [] := by
  rw [(compiledBy_of_compile ha).1]
  exact Segments.isMatch_compiledBy

theorem search_of_unanchored (hm : compile source requirements false = .ok m)
    (path : List Char) :
    m.regex.search path = (ends m.unbound (.start path)).head?.map fun h => ⟨0, h⟩ := by
  rw [(compiledBy_of_compile hm).1, search_textStart, head?_ends]
  rfl

/-- When the preferred match of a prefix takes up the whole path, it is the match that an end of
the path is asked of. -/
theorem search_of_anchored (ha : compile source requirements true = .ok a) {path : List Char}
    {x : Hit} (hx : (ends a.unbound (.start path)).head? = some x)
    (hlength : x.length = path.length) : a.regex.search path = some ⟨0, x⟩ := by
  have hend : run (closing true) ((Place.start path).advance x.length) (fun _ => some nothing) =
      some nothing := by
    rw [run_closing, if_neg]
    rw [Place.rest_advance, hlength, Place.start, List.drop_length]
    simp
  have hrun : run a.unbound (.start path) (fun q => run (closing true) q fun _ => some nothing) =
      some x := by
    obtain ⟨l, hl⟩ := List.head?_eq_some_iff.1 hx
    rw [run, hl, List.findSome?_cons, hend]
    simp
  rw [(compiledBy_of_compile ha).1, search_textStart, Segments.run_compiledBy]
  exact congrArg (Option.map fun h => Found.mk 0 h) hrun

theorem matchPath_of_search {path : String} {x : Hit}
    (h : p.regex.search path.toList = some ⟨0, x⟩)
    (hstops : p.anchored = true ∨ Continues (path.toList.drop x.length)) :
    p.matchPath path = (collect ⟨0, x⟩ path.toList p.slots .empty).map fun params =>
      ⟨params, String.ofList (path.toList.drop x.length)⟩ := by
  have hlast : (Found.mk 0 x).last = x.length := Nat.zero_add _
  have htest : (!p.anchored && !(path.toList.drop x.length).isEmpty &&
      decide ((path.toList.drop x.length).head? ≠ some '/')) = false := by
    rcases hstops with hanchored | hnil | hslash
    · simp [hanchored]
    · simp [hnil]
    · simp [hslash]
  simp only [matchPath, h, hlast, htest, Bool.false_eq_true, if_false]

/-- What an unanchored pattern matches: the preferred prefix, if it stops where a segment ends. -/
theorem matchPath_eq_some (hm : compile source requirements false = .ok m) {path rest : String}
    {params : Params} :
    m.matchPath path = some ⟨params, rest⟩ ↔
      ∃ x, (ends m.unbound (.start path.toList)).head? = some x ∧
        Continues (path.toList.drop x.length) ∧
        collect ⟨0, x⟩ path.toList m.slots .empty = some params ∧
        rest = String.ofList (path.toList.drop x.length) := by
  obtain ⟨_, _, _, -, -, -, -, -, -, -, hanchored, -⟩ := compile_eq_ok hm
  constructor
  · intro h
    cases hx : (ends m.unbound (.start path.toList)).head? with
    | none => simp [matchPath, search_of_unanchored hm, hx] at h
    | some x =>
        have hsearch : m.regex.search path.toList = some ⟨0, x⟩ := by
          rw [search_of_unanchored hm, hx]
          rfl
        have hstops : Continues (path.toList.drop x.length) := by
          have hlast : (Found.mk 0 x).last = x.length := Nat.zero_add _
          by_contra hno
          obtain ⟨hne, hslash⟩ := not_or.1 hno
          rw [List.head?_drop] at hslash
          simp [matchPath, hsearch, hlast, hanchored, hne, hslash] at h
        rw [matchPath_of_search hsearch (.inr hstops)] at h
        obtain ⟨all, hall, heq⟩ := Option.map_eq_some_iff.1 h
        cases heq
        exact ⟨x, rfl, hstops, hall, rfl⟩
  · rintro ⟨x, hx, hstops, hall, rfl⟩
    have hsearch : m.regex.search path.toList = some ⟨0, x⟩ := by
      rw [search_of_unanchored hm, hx]
      rfl
    rw [matchPath_of_search hsearch (.inr hstops), hall]
    rfl

/-- The two compilations of a source differ in the end of the expression only. -/
theorem compile_alike (hm : compile source requirements false = .ok m)
    (ha : compile source requirements true = .ok a) :
    m.segments = a.segments ∧ m.slots = a.slots := by
  obtain ⟨tree, _, _, htree, -, -, hsegments, hslots, -⟩ := compile_eq_ok hm
  obtain ⟨tree', _, _, htree', -, -, hsegments', hslots', -⟩ := compile_eq_ok ha
  cases htree.symm.trans htree'
  rw [hsegments] at hslots
  rw [hsegments', hslots] at hslots'
  obtain ⟨heq, -⟩ := Prod.mk.inj (Except.ok.inj hslots')
  exact ⟨hsegments.trans hsegments'.symm, heq⟩

theorem within_head? {l : List Hit} {x : Hit} {n : Nat} (hx : l.head? = some x)
    (hn : x.length ≤ n) : (within n l).head? = some x := by
  obtain ⟨k, rfl⟩ := List.head?_eq_some_iff.1 hx
  rw [within_cons_of_le hn]
  rfl

/-- No expression asked for tells a slash from the end of the path. -/
def NeverAsksEnd (requirements : Dict String) : Prop :=
  ∀ e ∈ requirements.entries, ∀ r ∈ (Regex.parse e.2).toOption, ∀ l ∈ r.looks,
    l.asksEnd = false

theorem NeverLooks.neverAsksEnd (h : NeverLooks requirements) : NeverAsksEnd requirements := by
  intro e he r hr l hl
  rw [h e he r hr] at hl
  cases hl

/-- Then a path that is cut where a segment ends is matched as far as the cut. -/
theorem ends_unbound_cut (hp : compile source requirements anchored = .ok p)
    (hends : NeverAsksEnd requirements) {q rest : List Char} (hrest : Continues rest) :
    within q.length (ends p.unbound (.start (q ++ rest))) = ends p.unbound (.start q) := by
  have hlooks := looks_inside_of_compile hp
    (P := fun looks => ∀ l ∈ looks, l.asksEnd = false) (by simp) hends
  refine ends_cut (fun l hl prev => ?_) 0 none q
  have hl : l.asksEnd = false :=
    Segments.looks_compiledBy (P := fun l => l.asksEnd = false) (hlooks.imp fun _ => And.right) l hl
  exact Look.holds_cut hl hrest.isWordAt hrest.ne_newline prev

/-- What an unanchored pattern takes of a path ends with a segment, and the anchored pattern
matches it, with the same values unless an expression asks for the end. -/
theorem matchPath_of_unanchored (hm : compile source requirements false = .ok m)
    (ha : compile source requirements true = .ok a) {path rest : String} {params : Params}
    (h : m.matchPath path = some ⟨params, rest⟩) :
    Continues rest.toList ∧ ∃ q, path = q ++ rest ∧ a.regex.isMatch q.toList = true ∧
      (NeverAsksEnd requirements → a.matchPath q = some ⟨params, ""⟩) := by
  obtain ⟨x, hx, hstops, hcollect, rfl⟩ := (matchPath_eq_some hm).1 h
  obtain ⟨hsegments, hslots⟩ := compile_alike hm ha
  have hunbound : a.unbound = m.unbound := by rw [unbound, unbound, hsegments]
  rw [String.toList_ofList]
  obtain ⟨s, after, hpath, hlength, htakes⟩ := takes_of_mem_ends (List.mem_of_head? hx)
  have hpath : path.toList = s ++ after := hpath
  have hdrop : path.toList.drop x.length = after := by
    rw [hpath, ← hlength, List.drop_left]
  rw [hdrop] at hstops ⊢
  refine ⟨hstops, String.ofList s, ?_, ?_, fun hends => ?_⟩
  · rw [← String.ofList_append, ← hpath, String.ofList_toList]
  · rw [String.toList_ofList, isMatch_of_anchored ha, hunbound]
    exact htakes.narrow (fun _ => rfl : _ → true = true) (.inl rfl)
      (.inr ⟨rfl, fun _ => hstops.isWordAt false⟩)
  · have hcut := ends_unbound_cut hm hends (q := s) hstops
    rw [hpath] at hx hcollect
    have hx' : (ends m.unbound (.start s)).head? = some x := by
      rw [← hcut]
      exact within_head? hx hlength.ge
    have hsearch : a.regex.search (String.ofList s).toList = some ⟨0, x⟩ := by
      rw [String.toList_ofList]
      exact search_of_anchored ha (hunbound ▸ hx') hlength.symm
    have hspans := last_le_of_mem_ends (List.mem_of_head? hx')
    rw [collect_congr (group?_append hspans), hslots] at hcollect
    obtain ⟨_, _, _, -, -, -, -, -, -, -, hanchored, -⟩ := compile_eq_ok ha
    rw [matchPath_of_search hsearch (.inl hanchored), String.toList_ofList, hcollect, ← hlength,
      List.drop_length]
    rfl

theorem matchPath_of_fullMatch {path : String} {params : Params}
    (h : p.fullMatch path = some params) : p.matchPath path = some ⟨params, ""⟩ := by
  rw [fullMatch] at h
  split at h
  · next captured hcaptured =>
      split at h
      · next hempty =>
          cases h
          rw [hcaptured, ← String.isEmpty_iff.1 hempty]
      · simp at h
  · simp at h

/-- An unanchored pattern that takes all of a path takes as much when the path goes on, as long as
the anchored pattern matches no longer prefix. -/
theorem matchPath_append (hm : compile source requirements false = .ok m)
    (ha : compile source requirements true = .ok a)
    (hlooks : NeverLooks requirements) {q r : String} {params : Params}
    (hq : m.fullMatch q = some params) (hr : Continues r.toList)
    (hlonger : ∀ s t, r.toList = s ++ t → s ≠ [] → a.regex.isMatch (q.toList ++ s) = false) :
    m.matchPath (q ++ r) = some ⟨params, r⟩ := by
  obtain ⟨x, hx, -, hcollect, hnone⟩ := (matchPath_eq_some hm).1 (matchPath_of_fullMatch hq)
  have hinside := looks_inside_of_compile hm (P := fun looks => looks = []) rfl hlooks
  have hunbound : a.unbound = m.unbound := by rw [unbound, unbound, (compile_alike hm ha).1]
  have hwhole : (q ++ r).toList = q.toList ++ r.toList := String.toList_append
  have hall : ∀ h ∈ ends m.unbound (.start (q.toList ++ r.toList)), h.length ≤ q.toList.length := by
    intro h hh
    obtain ⟨u, after, hrest, hlength, htakes⟩ := takes_of_mem_ends hh
    have hrest : q.toList ++ r.toList = u ++ after := hrest
    by_contra hlong
    obtain ⟨s, rfl, hs⟩ : ∃ s, u = q.toList ++ s ∧ r.toList = s ++ after := by
      rcases List.append_eq_append_iff.1 hrest with ⟨s, hu, hr⟩ | ⟨s, hu, -⟩
      · exact ⟨s, hu, hr⟩
      · rw [← hlength, hu, List.length_append] at hlong
        omega
    have hne : s ≠ [] := by
      rintro rfl
      simp [← hlength] at hlong
    have halone : Takes a.unbound none (q.toList ++ s) [] := by
      rw [hunbound]
      exact (Segments.takes_compiledBy_iff_mem_language hinside).2
        ((Segments.takes_compiledBy_iff_mem_language hinside).1 htakes)
    have hmatch := (isMatch_of_anchored ha).2 halone
    rw [hlonger s after hs hne] at hmatch
    cases hmatch
  have hcut := ends_unbound_cut hm hlooks.neverAsksEnd (q := q.toList) hr
  rw [within_eq_self hall] at hcut
  have hlength : x.length = q.toList.length := by
    obtain ⟨u, after, hrest, hu, -⟩ := takes_of_mem_ends (List.mem_of_head? hx)
    have hrest : q.toList = u ++ after := hrest
    have hnil : q.toList.drop x.length = [] := by simpa using hnone.symm
    rw [hrest, ← hu, List.drop_left] at hnil
    rw [hrest, hnil, List.append_nil, hu]
  refine (matchPath_eq_some hm).2 ⟨x, ?_, ?_, ?_, ?_⟩
  · rw [hwhole, hcut, hx]
  · rwa [hwhole, hlength, List.drop_left]
  · have hspans := last_le_of_mem_ends (List.mem_of_head? hx)
    rw [hwhole, collect_congr (group?_append hspans), hcollect]
  · rw [hwhole, hlength, List.drop_left, String.ofList_toList]

/-! ### Patterns of texts and single segments -/

theorem stops_of_continues {rest : List Char} (h : Continues rest) : stops rest = true := by
  cases rest with
  | nil => rfl
  | cons c rest =>
      rcases h with h | h
      · cases h
      · cases h
        rfl

/-- Where the pattern shows an end for a capture, the path shows it too. -/
theorem stops_text {s : Segments} (w : Walk s) (hgroup : s.hasGroup = false) {tail : List Char}
    (htail : stops tail = true) (hs : stops s.bareText = true) : stops (w.text ++ tail) = true := by
  induction w with
  | done => exact htail
  | literal text w ih =>
      rw [Segments.bareText] at hs
      rw [Walk.text, List.append_assoc]
      cases htext : text.toList with
      | nil =>
          rw [htext] at hs
          exact ih hgroup hs
      | cons c cs =>
          rw [htext] at hs
          exact hs
  | capture c raw w _ =>
      rw [Segments.bareText, List.cons_append] at hs
      cases hkind : c.kind <;> simp [stops, hkind, CaptureKind.marker] at hs
  | entered i w => cases hgroup
  | skipped inner w => cases hgroup

theorem leads_of_fits {s : Segments} (w : Walk s) (hfits : w.Fits)
    (hplain : s.Every Capture.IsPlain) (hgroup : s.hasGroup = false)
    (hdynamic : s.Every fun c => c.kind = .dynamic) (hsep : s.Separated []) {tail : List Char}
    (htail : Continues tail) (final : Prop) : w.Leads tail final := by
  induction w with
  | done => trivial
  | literal text w ih => exact ih hfits hplain hgroup hdynamic hsep
  | @capture c raw next w ih =>
      obtain ⟨hne, hraw, hnext⟩ := hfits
      refine ⟨hne, hraw, fun x hx => ?_, fun hlazy => ?_,
        ih hnext hplain.2 hgroup hdynamic.2 hsep.2⟩
      · have hends : stops (next.bareText ++ []) = true := by
          have hends := hsep.1
          rwa [hdynamic.1] at hends
        rw [List.append_nil] at hends
        have hstops := stops_text w hgroup (stops_of_continues htail) hends
        obtain ⟨l, hl⟩ := List.head?_eq_some_iff.1 hx
        rw [hl] at hstops
        rw [Capture.charClass, hdynamic.1]
        exact Capture.holds_segment_of_stop (by simpa [stops] using hstops)
      · have hglob := Segments.glob_of_not_greedy hplain.1 hlazy
        rw [hdynamic.1] at hglob
        cases hglob
  | entered i w => cases hgroup
  | skipped inner w => cases hgroup

/-- An anchored pattern leaves nothing of a path. -/
theorem remaining_of_anchored (ha : compile source requirements true = .ok a) {path : String}
    {captured : Captured} (h : a.matchPath path = some captured) : captured.remaining = "" := by
  rw [matchPath] at h
  simp only at h
  split at h
  · simp at h
  · next found hfound =>
      rw [(compiledBy_of_compile ha).1, search_textStart, ← head?_ends] at hfound
      obtain ⟨x, hx, rfl⟩ := Option.map_eq_some_iff.1 hfound
      obtain ⟨s, after, hrest, hlength, htakes⟩ := takes_of_mem_ends (List.mem_of_head? hx)
      obtain ⟨u, v, rfl, -, hend⟩ := takes_concat.1 (Segments.takes_compiledBy.1 htakes)
      obtain ⟨-, rfl⟩ := takes_textEnd.1 hend
      have hpath : path.toList = u ++ v ++ [] := hrest
      split at h
      · simp at h
      · obtain ⟨params, -, rfl⟩ := Option.map_eq_some_iff.1 h
        have hlast : (Found.mk 0 x).last = (u ++ v).length := by
          rw [hlength]
          exact Nat.zero_add _
        rw [hlast, hpath, List.drop_left]

/-- Texts and single segments alone are matched whatever follows the segment. -/
theorem matchPath_append_of_plain (hm : compile source .empty false = .ok m)
    (ha : compile source .empty true = .ok a) (hsep : isSeparated source = true)
    (hgroup : m.segments.hasGroup = false) (hglob : m.segments.hasGlob = false) {q r : String}
    {captured : Captured} (hq : a.matchPath q = some captured) (hr : Continues r.toList) :
    m.matchPath (q ++ r) = some ⟨captured.params, r⟩ := by
  have hplain := plain_of_compile hm
  obtain ⟨w, hfits, hpath, hgather⟩ := walk_of_matchPath (plain_of_compile ha) hq
  rw [remaining_of_anchored ha hq] at hpath
  obtain ⟨w, hfits, hpath, hgather⟩ : ∃ w : Walk m.segments, w.Fits ∧
      q.toList = w.text ++ "".toList ∧ gather w.captured .empty = some captured.params := by
    rw [(compile_alike hm ha).1]
    exact ⟨w, hfits, hpath, hgather⟩
  have hleads := leads_of_fits w hfits hplain.captures hgroup (Segments.every_dynamic hglob)
    (hplain.separated hsep) hr (false = true)
  have hwhole : (q ++ r).toList = w.text ++ r.toList := by
    rw [String.toList_append, hpath]
    simp
  rw [matchPath_of_leads_tail hplain hleads (hr.imp_right fun h => ⟨rfl, h⟩) hwhole, hgather,
    Option.map_some, String.ofList_toList]

/-! ### Prefixes -/

/-- What an unanchored pattern takes of a path ends with a segment and is matched by the anchored
pattern, with the same values unless an expression asks for the end. Conversely a path that the
anchored pattern matches is taken, with the same values, also when the path goes on behind it with
another segment, if there are nothing but texts and single segments, or if it is the prefix that
the engine prefers. -/
theorem matchPath_continued (hm : compile source requirements false = .ok m)
    (ha : compile source requirements true = .ok a) :
    (∀ path params rest, m.matchPath path = some ⟨params, rest⟩ →
      Continues rest.toList ∧ ∃ q, path = q ++ rest ∧ a.regex.isMatch q.toList = true ∧
        (NeverAsksEnd requirements → a.matchPath q = some ⟨params, ""⟩)) ∧
    ∀ q r captured, a.matchPath q = some captured → Continues r.toList →
      (requirements = .empty ∧ isSeparated source = true ∧ m.segments.hasGroup = false ∧
          m.segments.hasGlob = false ∨
        NeverLooks requirements ∧ (m.fullMatch q).isSome = true ∧
          ∀ s t, r.toList = s ++ t → s ≠ [] → a.regex.isMatch (q.toList ++ s) = false) →
      m.matchPath (q ++ r) = some ⟨captured.params, r⟩ := by
  refine ⟨fun _ _ _ => matchPath_of_unanchored hm ha, ?_⟩
  rintro q r captured hq hr (⟨rfl, hsep, hgroup, hglob⟩ | ⟨hlooks, hfull, hlonger⟩)
  · exact matchPath_append_of_plain hm ha hsep hgroup hglob hq hr
  · obtain ⟨params, hparams⟩ := Option.isSome_iff_exists.1 hfull
    obtain ⟨-, q', hq', -, hsame⟩ :=
      matchPath_of_unanchored hm ha (matchPath_of_fullMatch hparams)
    have hwhole : q = q' := by simpa using hq'
    subst hwhole
    cases hq.symm.trans (hsame hlooks.neverAsksEnd)
    exact matchPath_append hm ha hlooks hparams hr hlonger

/-- Shops by their number. -/
def shopRequirements : Dict String := .ofList [("shop", "[0-9]+")]

/-- A shop takes the paths of its pages, with a name and with a number. -/
theorem matchPath_continued_shops :
    (∃ m a captured, compile "/shops/:shop" .empty false = .ok m ∧
      compile "/shops/:shop" .empty true = .ok a ∧ a.matchPath "/shops/acme" = some captured ∧
      m.matchPath "/shops/acme/cart" = some ⟨captured.params, "/cart"⟩) ∧
    ∃ m a captured, compile "/shops/:shop" shopRequirements false = .ok m ∧
      compile "/shops/:shop" shopRequirements true = .ok a ∧
      a.matchPath "/shops/12" = some captured ∧ (m.fullMatch "/shops/12").isSome = true ∧
      m.matchPath "/shops/12/cart" = some ⟨captured.params, "/cart"⟩ := by
  have hcart : Continues "/cart".toList := .inr rfl
  refine ⟨?_, ?_⟩
  · have hmade : (compile "/shops/:shop" .empty false).toOption.any (fun m =>
        !m.segments.hasGroup && !m.segments.hasGlob) = true := by
      decide +kernel
    obtain ⟨m, hm, hmade⟩ := exists_ok_of_any hmade
    have hanchored : (compile "/shops/:shop" .empty true).toOption.any (fun a =>
        (a.matchPath "/shops/acme").isSome) = true := by
      decide +kernel
    obtain ⟨a, ha, hmatch⟩ := exists_ok_of_any hanchored
    obtain ⟨captured, hq⟩ := Option.isSome_iff_exists.1 hmatch
    obtain ⟨hgroup, hglob⟩ := Bool.and_eq_true_iff.1 hmade
    have hprefix := (matchPath_continued hm ha).2 "/shops/acme" "/cart" captured hq hcart
      (.inl ⟨rfl, by decide +kernel, by simpa using hgroup, by simpa using hglob⟩)
    exact ⟨m, a, captured, hm, ha, hq, hprefix⟩
  · have hmade : (compile "/shops/:shop" shopRequirements false).toOption.any (fun m =>
        (m.fullMatch "/shops/12").isSome) = true := by
      decide +kernel
    obtain ⟨m, hm, hfull⟩ := exists_ok_of_any hmade
    have hanchored : (compile "/shops/:shop" shopRequirements true).toOption.any (fun a =>
        (a.matchPath "/shops/12").isSome && "/cart".toList.inits.all fun s =>
          s.isEmpty || !a.regex.isMatch ("/shops/12".toList ++ s)) = true := by
      decide +kernel
    obtain ⟨a, ha, hmade⟩ := exists_ok_of_any hanchored
    obtain ⟨hmatch, hlonger⟩ := Bool.and_eq_true_iff.1 hmade
    obtain ⟨captured, hq⟩ := Option.isSome_iff_exists.1 hmatch
    have hprefix := (matchPath_continued hm ha).2 "/shops/12" "/cart" captured hq hcart
      (.inr ⟨by decide +kernel, hfull, fun s t hs hne => ?_⟩)
    · exact ⟨m, a, captured, hm, ha, hq, hfull, hprefix⟩
    · have hinit := List.all_eq_true.1 hlonger s ((List.mem_inits s _).2 ⟨t, hs.symm⟩)
      simpa [hne] using hinit

/-- A path of the anchored pattern that the unanchored one does not take when the path goes on. -/
def Skips (source : String) (requirements : Dict String) (q r : String) : Prop :=
  ∃ m a, compile source requirements false = .ok m ∧ compile source requirements true = .ok a ∧
    (a.matchPath q).isSome = true ∧ Continues r.toList ∧ m.matchPath (q ++ r) = none

theorem skips_of_compile {source : String} {requirements : Dict String} {q r : String}
    (h : ((compile source requirements false).toOption.bind fun m =>
      (compile source requirements true).toOption.map fun a =>
        (a.matchPath q).isSome && (m.matchPath (q ++ r)).isNone) = some true)
    (hr : Continues r.toList) : Skips source requirements q r := by
  obtain ⟨m, hm, h⟩ := Option.bind_eq_some_iff.1 h
  obtain ⟨a, ha, h⟩ := Option.map_eq_some_iff.1 h
  obtain ⟨hq, hnone⟩ := Bool.and_eq_true_iff.1 h
  exact ⟨m, a, toOption_eq_some.1 hm, toOption_eq_some.1 ha, hq, hr,
    Option.isNone_iff_eq_none.1 hnone⟩

/-- The engine takes the first of two texts although the path goes on with the second, and enters
a group although the segment goes on behind it; and a group that is asked for the end of the path
is captured twice with different values. -/
theorem skips_of_choice_and_group :
    Skips "/:locale" (.ofList [("locale", "en|en\\-us")]) "/en-us" "/posts" ∧
      Skips "/admin(/:section)" .empty "/admin" "/x.y" ∧
      ∃ m a params, compile "/:x:x" (.ofList [("x", "(?:aa$|a|)")]) false = .ok m ∧
        compile "/:x:x" (.ofList [("x", "(?:aa$|a|)")]) true = .ok a ∧
        m.matchPath "/aa/z" = some ⟨params, "/z"⟩ ∧ a.matchPath "/aa" = none := by
  refine ⟨skips_of_compile (by decide +kernel) (.inr rfl),
    skips_of_compile (by decide +kernel) (.inr rfl), ?_⟩
  have hmade : ((compile "/:x:x" (.ofList [("x", "(?:aa$|a|)")]) false).toOption.bind fun m =>
      (compile "/:x:x" (.ofList [("x", "(?:aa$|a|)")]) true).toOption.map fun a =>
        decide ((m.matchPath "/aa/z").map (·.remaining) = some "/z") &&
          (a.matchPath "/aa").isNone) = some true := by
    decide +kernel
  obtain ⟨m, hm, h⟩ := Option.bind_eq_some_iff.1 hmade
  obtain ⟨a, ha, h⟩ := Option.map_eq_some_iff.1 h
  obtain ⟨hrest, hnone⟩ := Bool.and_eq_true_iff.1 h
  obtain ⟨⟨params, rest⟩, hmatch, rfl⟩ := Option.map_eq_some_iff.1 (of_decide_eq_true hrest)
  exact ⟨m, a, params, toOption_eq_some.1 hm, toOption_eq_some.1 ha, hmatch,
    Option.isNone_iff_eq_none.1 hnone⟩

end Pattern

end RouteEngine
