import RouteEngine.Proofs.Pattern.Aligned
import RouteEngine.Proofs.Pattern.Described
import RouteEngine.Proofs.Pattern.Parts
import RouteEngine.Proofs.Pattern.RoundTrip
import RouteEngine.Proofs.Regex.Border

/-!
Segments that hold one capture and nothing else. Whatever is asked of such a capture, an escaped
value has no slash in it, and the slashes of the path are all accounted for by the literals. So
there is only one walk along the path that was written (`Walk.eq_of_text_eq`), however much the
expressions would take up elsewhere, and on it each capture stands for its escaped value alone
(`Walk.taken_iff`). The path is matched back exactly when every expression takes the escaped value
(`matchPath_slotted`).
-/

namespace RouteEngine

open Regex

namespace Segments

/-- The text is at its end or goes on with a slash. -/
def AtSlash (text : List Char) : Prop := ∀ c ∈ text.head?, c = '/'

/-- Behind `prev` the tree has no groups, and each capture takes one segment, from its slash to the
next one or to the end. -/
def Slotted : Segments → (prev : Option Char) → Prop
  | done, _ => True
  | literal text next, prev => next.Slotted (lastOf prev text.toList)
  | capture c next, prev =>
    prev = some '/' ∧ c.kind = .dynamic ∧ AtSlash next.bareText ∧ next.Slotted none
  | group _ _, _ => False

/-- The slashes that the literals of the tree bring. -/
def slashes : Segments → Nat
  | done => 0
  | literal text next => text.toList.count '/' + next.slashes
  | capture _ next => next.slashes
  | group _ next => next.slashes

variable {s : Segments} {prev : Option Char}

/-- A tree that does not begin with a capture may stand anywhere. -/
theorem Slotted.of_none (h : s.Slotted none) (prev : Option Char) : s.Slotted prev := by
  induction s generalizing prev with
  | done => trivial
  | literal text next ih =>
      rw [Slotted] at h ⊢
      cases htext : text.toList with
      | nil =>
          rw [htext] at h
          exact ih h prev
      | cons c cs =>
          rw [htext] at h
          exact h
  | capture c next _ => cases h.1
  | group inner next _ _ => exact h

theorem Slotted.every_dynamic (h : s.Slotted prev) : s.Every fun c => c.kind = .dynamic := by
  induction s generalizing prev with
  | done => trivial
  | literal text next ih => exact ih h
  | capture c next ih => exact ⟨h.2.1, ih h.2.2.2⟩
  | group inner next _ _ => exact h.elim

theorem Slotted.mapCaptures {f : Capture → Capture}
    (hf : ∀ c, (f c).kind = c.kind ∧ (f c).name = c.name) (h : s.Slotted prev) :
    (s.mapCaptures f).Slotted prev := by
  induction s generalizing prev with
  | done => trivial
  | literal text next ih => exact ih h
  | capture c next ih =>
      obtain ⟨hprev, hkind, hslash, hnext⟩ := h
      refine ⟨hprev, (hf c).1.trans hkind, ?_, ih hnext⟩
      rwa [bareText_mapCaptures hf]
  | group inner next _ _ => exact h

/-- All names of the tree are required. -/
theorem Slotted.names_eq (h : s.Slotted prev) :
    (s.occurrences false).map (fun o => o.capture.name) = s.requiredNames := by
  induction s generalizing prev with
  | done => rfl
  | literal text next ih => exact ih h
  | capture c next ih =>
      rw [occurrences, List.map_cons, ih h.2.2.2]
      rfl
  | group inner next _ _ => exact h.elim

end Segments

/-! ### The only walk -/

namespace Walk

open Segments

variable {s : Segments} {prev : Option Char} {after : List Char}

theorem atSlash_text (w : Walk s) (hs : s.Slotted prev) (h : AtSlash s.bareText) :
    AtSlash w.text := by
  induction w generalizing prev with
  | done => simp [AtSlash, text]
  | @literal text next w ih =>
      rw [bareText] at h
      rw [Walk.text]
      cases htext : text.toList with
      | nil =>
          rw [htext] at h
          exact ih hs h
      | cons c cs =>
          rw [htext] at h
          exact h
  | capture c raw w _ =>
      have hmarker := h c.kind.marker rfl
      rw [hs.2.1] at hmarker
      exact absurd hmarker (by decide)
  | entered i w _ _ => exact hs.elim
  | skipped inner w _ => exact hs.elim

/-- Slashes that the literals do not bring stand in captures. -/
theorem count_text (w : Walk s) (hs : s.Slotted prev) :
    w.text.count '/' = s.slashes + (w.captured.map fun e => e.2.count '/').sum := by
  induction w generalizing prev with
  | done => rfl
  | literal text w ih =>
      rw [Walk.text, List.count_append, ih hs, slashes, captured]
      omega
  | capture c raw w ih =>
      rw [Walk.text, List.count_append, ih hs.2.2.2, slashes, captured, List.map_cons,
        List.sum_cons]
      dsimp only
      omega
  | entered i w _ _ => exact hs.elim
  | skipped inner w _ => exact hs.elim

/-- The walk takes up no slash in a capture. -/
def Slashless (w : Walk s) : Prop := ∀ e ∈ w.captured, '/' ∉ e.2

theorem slashless_iff (w : Walk s) (hs : s.Slotted prev) :
    w.Slashless ↔ w.text.count '/' = s.slashes := by
  have hsum : (w.captured.map fun e => e.2.count '/').sum = 0 ↔ w.Slashless := by
    rw [List.sum_eq_zero_iff_forall_eq_nat, List.forall_mem_map]
    exact forall₂_congr fun e _ => List.count_eq_zero
  rw [← hsum, w.count_text hs]
  omega

/-- Up to the next slash a text is cut in one way. -/
theorem eq_of_append_atSlash {raw raw' t t' : List Char} (h : raw ++ t = raw' ++ t')
    (hraw : '/' ∉ raw) (hraw' : '/' ∉ raw') (ht : AtSlash t) (ht' : AtSlash t') :
    raw = raw' ∧ t = t' := by
  have htake : ∀ {raw t : List Char}, '/' ∉ raw → AtSlash t →
      (raw ++ t).takeWhile (fun c => c != '/') = raw := by
    intro raw t hraw ht
    refine takeWhile_append_of_head (fun c hc => ?_) fun c hc => ?_
    · simpa using ne_of_mem_of_not_mem hc hraw
    · simp [ht c hc]
  have heq : raw = raw' := by rw [← htake hraw ht, h, htake hraw' ht']
  subst heq
  exact ⟨rfl, List.append_cancel_left h⟩

theorem eq_of_slashless {w w' : Walk s} (hs : s.Slotted prev) (hw : w.Slashless)
    (hw' : w'.Slashless) (h : w.text = w'.text) : w = w' := by
  induction w generalizing prev with
  | done =>
      cases w'
      rfl
  | literal text w ih =>
      cases w' with
      | literal _ w' => rw [ih hs hw hw' (List.append_cancel_left h)]
  | capture c raw w ih =>
      cases w' with
      | capture _ raw' w' =>
          obtain ⟨hraw, hrest⟩ := List.forall_mem_cons.1 hw
          obtain ⟨hraw', hrest'⟩ := List.forall_mem_cons.1 hw'
          obtain ⟨-, -, hslash, hnext⟩ := hs
          obtain ⟨rfl, htext⟩ := eq_of_append_atSlash h hraw hraw' (w.atSlash_text hnext hslash)
            (w'.atSlash_text hnext hslash)
          rw [ih hnext hrest hrest' htext]
  | entered i w _ _ => exact hs.elim
  | skipped inner w _ => exact hs.elim

/-- A walk without slashes in its captures is the only one along its text. -/
theorem eq_of_text_eq {w w' : Walk s} (hs : s.Slotted prev) (hw : w.Slashless)
    (h : w.text = w'.text) : w = w' := by
  refine eq_of_slashless hs hw ?_ h
  rw [slashless_iff w' hs, ← h]
  exact (slashless_iff w hs).1 hw

/-! ### What its captures take -/

/-- Each capture takes up its text alone. -/
def Alone {s : Segments} : Walk s → Prop
  | done => True
  | literal _ w => w.Alone
  | capture c raw w => Takes c.inside none raw [] ∧ w.Alone
  | entered i w => i.Alone ∧ w.Alone
  | skipped _ w => w.Alone

theorem alike_of_atSlash {t : List Char} (h : AtSlash t) : Alike t.head? none := by
  cases t with
  | nil => exact .refl _
  | cons c t =>
      obtain rfl : c = '/' := h c rfl
      exact alike_slash

/-- Between slashes a capture takes up what it takes up alone. -/
theorem taken_iff (w : Walk s) (hs : s.Slotted prev)
    (hborder : s.Every fun c => c.inside.asksBorder = false) : w.Taken prev [] ↔ w.Alone := by
  induction w generalizing prev with
  | done => exact Iff.rfl
  | literal text w ih => exact ih hs hborder
  | capture c raw w ih =>
      obtain ⟨rfl, -, hslash, hnext⟩ := hs
      have hafter : Alike (w.text ++ []).head? none := by
        rw [List.append_nil]
        exact alike_of_atSlash (w.atSlash_text hnext hslash)
      exact and_congr (takes_iff_alone hborder.1 alike_slash hafter)
        (ih (hnext.of_none _) hborder.2)
  | entered i w _ _ => exact hs.elim
  | skipped inner w _ => exact hs.elim

/-- The expression of a tree takes up the text of a walk whose captures take up theirs. -/
theorem takes_of_taken {count : Capture → Nat} {first : Nat} (w : Walk s)
    (hw : w.Taken prev after) : Takes (s.compiledBy count first .empty) prev w.text after := by
  induction w generalizing first prev after with
  | done => exact .empty
  | literal text w ih => exact takes_textThen_after.2 ⟨w.text, rfl, ih hw⟩
  | capture c raw w ih =>
      exact .concat (.group (takes_renumber_add.2 hw.1)) (ih hw.2)
  | entered i w ihInner ihNext =>
      exact .concat (.some (ihInner hw.1)) (ihNext hw.2)
  | skipped inner w ih => exact takes_concat.2 ⟨[], w.text, rfl, .skip, ih hw⟩

end Walk

/-! ### The tree of a plain path -/

namespace Pattern

open Segments

theorem slotted_pushChar (c : Char) {ts : List Token} {s : Segments} {st : List Segments}
    (h : stack ts = s :: st) :
    ∃ s', stack (pushChar c ts) = s' :: st ∧ s'.bareText = c :: s.bareText ∧
      ∀ prev, s.Slotted (some c) → s'.Slotted prev := by
  rcases pushChar_eq c ts with ⟨cs, rest, rfl, hpush⟩ | ⟨-, hpush⟩
  · obtain ⟨top, below, hst⟩ := List.exists_cons_of_ne_nil (stack_ne_nil rest)
    unfold stack at h
    rw [hst] at h
    cases h
    refine ⟨literal (String.ofList (c :: cs)) top, ?_, by simp [Segments.bareText],
      fun prev hs => ?_⟩
    · rw [hpush]
      unfold stack
      rw [hst]
    · rw [Slotted, String.toList_ofList] at hs ⊢
      exact hs
  · refine ⟨literal (String.ofList [c]) s, ?_, by simp [Segments.bareText], fun prev hs => ?_⟩
    · rw [hpush]
      unfold stack
      rw [h]
    · rw [Slotted, String.toList_ofList]
      exact hs

theorem slotted_foldr_pushChar (cs : List Char) {ts : List Token} {s : Segments}
    {st : List Segments} (h : stack ts = s :: st) :
    ∃ s', stack (cs.foldr pushChar ts) = s' :: st ∧ s'.bareText = cs ++ s.bareText ∧
      ∀ prev, s.Slotted (lastOf prev cs) → s'.Slotted prev := by
  induction cs with
  | nil => exact ⟨s, h, rfl, fun _ hs => hs⟩
  | cons c cs ih =>
      obtain ⟨m, hm, htext, hslotted⟩ := ih
      obtain ⟨s', hs', htext', hslotted'⟩ := slotted_pushChar c hm
      exact ⟨s', hs', by rw [htext', htext, List.cons_append],
        fun prev hs => hslotted' prev (hslotted _ hs)⟩

/-- What stands between slashes is read into slots of their own. -/
theorem slotted_slashed {parts : List Part} (hparts : ∀ x ∈ parts, x.IsProper) :
    ∃ s, stack (tokens (Escape.slashed (parts.map Part.print))) = [s] ∧ AtSlash s.bareText ∧
      ∀ prev, s.Slotted prev := by
  -- The stack is built from the end, so a part is pushed in front of slots that are there already,
  -- and its slash in front of it.
  induction parts with
  | nil => exact ⟨.done, rfl, by simp [AtSlash, Segments.bareText], fun _ => trivial⟩
  | cons part parts ih =>
      obtain ⟨hpart, hparts⟩ := List.forall_mem_cons.1 hparts
      obtain ⟨s, hst, hslash, hslotted⟩ := ih hparts
      have htext : Escape.slashed ((part :: parts).map Part.print) =
          '/' :: (part.print ++ Escape.slashed (parts.map Part.print)) := by
        simp [Escape.slashed]
      have htokens := tokens_cons (c := '/') (by decide)
        (part.print ++ Escape.slashed (parts.map Part.print))
      rw [htext, htokens]
      cases part with
      | literal text =>
          have hsafe := List.all_eq_true.1 hpart.2
          rw [Part.print, tokens_append fun c hc => isPlainChar_of_isUnreserved (hsafe c hc)]
          obtain ⟨s', hs', htext', hslotted'⟩ := slotted_foldr_pushChar ('/' :: text.toList) hst
          refine ⟨s', hs', fun c hc => ?_, fun prev => hslotted' prev (hslotted _)⟩
          rw [htext'] at hc
          exact (Option.some.inj hc).symm
      | param name =>
          have hne : name.toList ≠ [] := by simpa using hpart.1
          have hhead : ∀ c ∈ (Escape.slashed (parts.map Part.print)).head?,
              Text.isNameChar c = false := by
            intro c hc
            cases parts with
            | nil => simp [Escape.slashed] at hc
            | cons next parts =>
                obtain rfl : '/' = c := by simpa [Escape.slashed] using hc
                decide
          rw [Part.print, List.cons_append,
            tokens_name hne (List.all_eq_true.1 hpart.2) hhead]
          have hm : stack (.capture .dynamic name.toList ::
              tokens (Escape.slashed (parts.map Part.print))) =
                [capture (defaultCapture .dynamic name.toList) s] := by
            unfold stack
            rw [hst]
          obtain ⟨s', hs', htext', hslotted'⟩ := slotted_pushChar '/' hm
          refine ⟨s', hs', fun c hc => ?_,
            fun prev => hslotted' prev ⟨rfl, rfl, hslash, hslotted none⟩⟩
          rw [htext'] at hc
          exact (Option.some.inj hc).symm

theorem kind_requireCapture_eq (requirements : Dict String) (hasFormat : Bool) (c : Capture) :
    (requireCapture requirements hasFormat c).kind = c.kind := by
  unfold requireCapture
  split
  · rfl
  · split <;> rfl

/-- A compiled plain path is slotted, whatever its captures are asked for. -/
theorem slotted_of_compile {requirements : Dict String} {source : String} {anchored : Bool}
    {p : Pattern} {parts : List Part} (hparts : ∀ x ∈ parts, x.IsProper)
    (hsource : source.toList = Part.pathText parts)
    (hp : compile source requirements anchored = .ok p) : p.segments.Slotted none := by
  obtain ⟨tree, _, _, htree, -, -, hsegments, -⟩ := compile_eq_ok hp
  obtain ⟨-, rfl⟩ := stack_of_parseTree (parseTree_of_readTree htree)
  rw [hsegments]
  refine Slotted.mapCaptures
    (fun c => ⟨kind_requireCapture_eq _ _ c, name_requireCapture _ c⟩) ?_
  rw [hsource, Part.pathText]
  split
  · have hdone : stack [] = [Segments.done] := rfl
    obtain ⟨s, hs, -, hslotted⟩ := slotted_pushChar '/' hdone
    have htokens : tokens ['/'] = pushChar '/' [] := tokens_cons (by decide) []
    rw [htokens, hs]
    exact hslotted none trivial
  · obtain ⟨s, hs, -, hslotted⟩ := slotted_slashed hparts
    rw [hs]
    exact hslotted none

/-! ### Matching -/

variable {requirements : Dict String} {source : String} {p : Pattern}

theorem rest_eq_nil_of_mem_closing {q : Place} {h : Hit} (hh : h ∈ ends (closing true) q) :
    q.rest = [] := by
  obtain ⟨t, after, hrest, -, htakes⟩ := takes_of_mem_ends hh
  obtain ⟨rfl, rfl⟩ := takes_textEnd.1 htakes
  exact hrest

theorem matchPath_eq_none {path : String} (h : p.regex.isMatch path.toList = false) :
    p.matchPath path = none := by
  rw [isMatch, Option.isSome_eq_false_iff, Option.isNone_iff_eq_none] at h
  rw [matchPath, h]

/-- An anchored pattern whose expression matches a path goes along a walk, and its answer is what
the walk gathers. -/
theorem walk_of_isMatch (hp : compile source requirements true = .ok p) (haligned : p.Aligned)
    {path : String} (h : p.regex.isMatch path.toList = true) :
    ∃ w : Walk p.segments, path.toList = w.text ∧ w.Taken none [] ∧
      p.matchPath path = (gather w.captured .empty).map fun params => ⟨params, ""⟩ := by
  obtain ⟨hregex, hparse⟩ := compiledBy_of_compile hp
  obtain ⟨found, hfound⟩ := Option.isSome_iff_exists.1 h
  have hsearch := hfound
  rw [hregex, search_textStart, Option.map_eq_some_iff] at hfound
  obtain ⟨x, hx, rfl⟩ := hfound
  obtain ⟨x, hmem, y, hy, rfl⟩ := run_eq_some hx
  cases hy
  rw [Hit.andThen_nothing] at hsearch
  obtain ⟨w, hw, htaken, spans, hcloses, k, hk, rfl⟩ := Walk.walk_of_mem_compiled hparse hmem
  have hend := rest_eq_nil_of_mem_closing hk
  cases mem_ends_closing hk
  rw [Hit.andThen_nothing] at hsearch
  rw [hend, List.append_nil] at hw
  rw [hend] at htaken
  have hpath : path.toList = w.text := hw
  have hcollect : collect ⟨0, ⟨w.text.length, spans⟩⟩ path.toList p.slots .empty =
      gather w.captured .empty := by
    rw [slots_of_keepsGroups hp ((aligned_iff hp).1 haligned)]
    exact collect_walk Capture.groupsMet_pos hcloses (hpath.trans (List.append_nil _).symm) .empty
  have hlast : path.toList.drop (Found.mk 0 ⟨w.text.length, spans⟩).last = [] := by
    simp [Found.last, hpath]
  refine ⟨w, hpath, htaken, ?_⟩
  simp only [matchPath, hsearch, hlast, hcollect]
  simp

/-- The path that is written has one walk along it, so it is matched back to the values exactly
when each capture takes up its escaped value alone, and not at all otherwise. -/
theorem matchPath_slotted (hp : compile source requirements true = .ok p) (haligned : p.Aligned)
    (hslotted : p.segments.Slotted none)
    (hborder : p.segments.Every fun c => c.inside.asksBorder = false) {values : Params}
    {wanted : String → Bool}
    (hdirect : ∀ c ∈ p.segments.directCaptures, values.contains c.name = true)
    (hkeys : ∀ n ∈ values.keys, n ∈ p.requiredNames) :
    p.matchPath (String.ofList (p.segments.filling values wanted).text) = some ⟨values, ""⟩ ∧
        (p.segments.filling values wanted).Alone ∨
      p.matchPath (String.ofList (p.segments.filling values wanted).text) = none ∧
        ¬ (p.segments.filling values wanted).Alone := by
  have hslashless : (p.segments.filling values wanted).Slashless := by
    intro e he
    obtain ⟨value, -, heq⟩ := escapeWith_captured hslotted.every_dynamic hdirect e he
    rw [heq]
    exact Escape.not_mem_escapeWith (fun _ => by decide) (by decide +kernel)
  -- Any walk along the path is the one that was written.
  have hunique : ∀ w : Walk p.segments,
      (String.ofList (p.segments.filling values wanted).text).toList = w.text →
        w = p.segments.filling values wanted := by
    intro w hw
    rw [String.toList_ofList] at hw
    exact (Walk.eq_of_text_eq hslotted hslashless hw).symm
  have halone := (p.segments.filling values wanted).taken_iff hslotted hborder
  cases hmatch : p.regex.isMatch
      (String.ofList (p.segments.filling values wanted).text).toList with
  | true =>
      obtain ⟨w, hw, htaken, hanswer⟩ := walk_of_isMatch hp haligned hmatch
      obtain rfl := hunique w hw
      have hgather : gather (p.segments.filling values wanted).captured .empty = some values := by
        refine gather_eq_some (unescapeChars_captured hdirect) fun n hn => ?_
        obtain ⟨c, hc, rfl⟩ := List.mem_map.1 (hkeys n hn)
        exact Walk.mem_captured_of_mem_directCaptures _ hc
      rw [hanswer, hgather]
      exact .inl ⟨rfl, halone.1 htaken⟩
  | false =>
      refine .inr ⟨matchPath_eq_none hmatch, fun h => ?_⟩
      have htakes : Takes (p.segments.compiledBy Capture.groupsMet 1 .empty) none
          (p.segments.filling values wanted).text [] := Walk.takes_of_taken _ (halone.2 h)
      rw [← isMatch_compiledBy] at htakes
      rw [(compiledBy_of_compile hp).1, String.toList_ofList] at hmatch
      exact Bool.false_ne_true (hmatch.symm.trans htakes)

end Pattern

end RouteEngine
