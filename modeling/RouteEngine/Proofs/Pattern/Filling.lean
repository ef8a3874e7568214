import RouteEngine.Proofs.Escape.RoundTrip
import RouteEngine.Proofs.Pattern.Captured
import RouteEngine.Proofs.Pattern.Separated
import RouteEngine.Proofs.Pattern.Template

/-!
The walk of what is written. Filling a tree with values picks a walk: a group is entered when it
is written, and a capture stands for its escaped value. The text that is written is the text of
this walk. When the captures are separated, and groups are left out at the end of the path only,
the walk leads the engine (`leads_filling`): an escaped value has no character at which its
capture could end early, and what follows a capture is one at which it must end.
-/

namespace RouteEngine

open Regex

/-! ### Escaped values -/

namespace Capture

variable {c : Capture} {value : String} {values : Params}

theorem emitted_of_get? (h : values.get? c.name = some value) :
    c.emitted values = ⟨c.escape value, [c.name], []⟩ := by
  rw [emitted, h]

theorem unescapeChars_escape (c : Capture) (value : String) :
    Escape.unescapeChars (c.escape value) = some value.toList := by
  unfold escape
  split <;> exact Escape.unescapeChars_escapeWith (by decide) _

theorem escape_ne_nil (hvalue : value ≠ "") : c.escape value ≠ [] := by
  have hne : value.toList ≠ [] := by simpa using hvalue
  unfold escape
  split <;> exact Escape.escapeWith_ne_nil hne

/-- A character that is excluded from a class. -/
theorem holds_segment {x : Char} (hslash : x ≠ '/') (hpoint : x ≠ '.') (hmark : x ≠ '?') :
    CharClass.segment.holds x = true := by
  have hsingle (d : Char) (h : x ≠ d) : (CharClass.single d).holds x = false := by
    rw [Bool.eq_false_iff]
    exact fun hx => h (CharClass.holds_single.1 hx)
  simp only [CharClass.segment, CharClass.holds, hsingle '/' hslash, hsingle '.' hpoint,
    hsingle '?' hmark]
  rfl

theorem holds_segment_of_stop {x : Char} (h : x = '/' ∨ x = '.') :
    CharClass.segment.holds x = false := by
  rcases h with rfl | rfl <;> rfl

theorem holds_line {x : Char} (h : x ≠ '\n') : CharClass.line.holds x = true := by
  have hsingle : (CharClass.single '\n').holds x = false := by
    rw [Bool.eq_false_iff]
    exact fun hx => h (CharClass.holds_single.1 hx)
  simp only [CharClass.line, CharClass.holds, hsingle]
  rfl

/-- An escaped value stays within the class of its capture. -/
theorem holds_escape (hpoint : c.kind = .dynamic → '.' ∉ value.toList) {x : Char}
    (hx : x ∈ c.escape value) : c.charClass.holds x = true := by
  unfold escape at hx
  unfold charClass
  cases hkind : c.kind with
  | dynamic =>
      simp only [hkind] at hx ⊢
      have hne (d : Char) (hd : d ∈ value.toList → Escape.isSegmentSafe d = false)
          (hhex : d ∉ "%0123456789ABCDEF".toList) : x ≠ d := by
        rintro rfl
        exact Escape.not_mem_escapeWith hd hhex hx
      exact holds_segment (hne '/' (fun _ => by decide) (by decide +kernel))
        (hne '.' (fun h => absurd h (hpoint hkind)) (by decide +kernel))
        (hne '?' (fun _ => by decide) (by decide +kernel))
  | glob =>
      simp only [hkind] at hx ⊢
      refine holds_line ?_
      rintro rfl
      exact Escape.not_mem_escapeWith (fun _ => by decide) (by decide +kernel) hx

/-- The value of the capture, if it has one, can be told from what follows it. -/
def Suits (values : Params) (c : Capture) : Prop :=
  ∀ v ∈ values.get? c.name, v ≠ "" ∧ (c.kind = .dynamic → '.' ∉ v.toList)

instance (values : Params) (c : Capture) : Decidable (c.Suits values) :=
  inferInstanceAs (Decidable (∀ v ∈ values.get? c.name, _))

end Capture

namespace Segments

variable {values : Params} {wanted : String → Bool}

/-! ### The walk that is written -/

def filling (values : Params) (wanted : String → Bool) : (s : Segments) → Walk s
  | done => .done
  | literal text next => .literal text (next.filling values wanted)
  | capture c next => .capture c (c.emitted values).text (next.filling values wanted)
  | group inner next =>
    if inner.includable fun n => wanted n && values.contains n then
      .entered (inner.filling values wanted) (next.filling values wanted)
    else .skipped inner (next.filling values wanted)

theorem text_emit (s : Segments) :
    (s.emit values wanted).text = (s.filling values wanted).text := by
  induction s with
  | done => rfl
  | literal text next ih => rw [emit, filling, Emitted.append, Walk.text, ih]
  | capture c next ih => rw [emit_capture, filling, Emitted.append, Walk.text, ih]
  | group inner next ihInner ihNext =>
      simp only [emit, filling, Emitted.append]
      split
      · rw [Walk.text, ihInner, ihNext]
      · rw [Walk.text, ihNext]
        rfl

/-- A group that is written has all it needs. -/
theorem given_of_includable {given : String → Bool} {inner : Segments}
    (h : inner.includable given = true) : ∀ c ∈ inner.directCaptures, given c.name = true := by
  rw [includable, isWritable, Bool.and_eq_true] at h
  exact List.all_eq_true.1 h.1

theorem contains_of_includable {inner : Segments}
    (h : (inner.includable fun n => wanted n && values.contains n) = true) :
    ∀ c ∈ inner.directCaptures, values.contains c.name = true :=
  fun c hc => (Bool.and_eq_true_iff.1 (given_of_includable h c hc)).2

/-- Only the values of required and of wanted names are written. -/
theorem emit_congr {values values' : Params} {s : Segments}
    (hdirect : ∀ c ∈ s.directCaptures, values.get? c.name = values'.get? c.name)
    (hwanted : ∀ n, wanted n = true → values.get? n = values'.get? n) :
    s.emit values wanted = s.emit values' wanted := by
  have hgiven : (fun n => wanted n && values.contains n) =
      fun n => wanted n && values'.contains n := by
    funext n
    cases hn : wanted n with
    | false => rfl
    | true => rw [Dict.contains, Dict.contains, hwanted n hn]
  induction s with
  | done => rfl
  | literal text next ih => rw [emit, emit, ih hdirect]
  | capture c next ih =>
      obtain ⟨hc, hnext⟩ := List.forall_mem_cons.1 hdirect
      rw [emit_capture, emit_capture, ih hnext, Capture.emitted, Capture.emitted, hc]
  | group inner next ihInner ihNext =>
      rw [emit, emit, hgiven, ihNext hdirect]
      split
      · next hincludable =>
          -- A group is written only if all its own captures are wanted.
          have hinner : ∀ c ∈ inner.directCaptures, values.get? c.name = values'.get? c.name := by
            intro c hc
            have hgiven := given_of_includable hincludable c hc
            rw [Bool.and_eq_true] at hgiven
            exact hwanted c.name hgiven.1
          rw [ihInner hinner]
      · rfl

theorem exists_value {c : Capture} (h : values.contains c.name = true) :
    ∃ v, values.get? c.name = some v :=
  Option.isSome_iff_exists.1 h

theorem missing_emit {s : Segments}
    (h : ∀ c ∈ s.directCaptures, values.contains c.name = true) :
    (s.emit values wanted).missing = [] := by
  induction s with
  | done => rfl
  | literal text next ih => exact ih h
  | capture c next ih =>
      obtain ⟨hc, hnext⟩ := List.forall_mem_cons.1 h
      obtain ⟨v, hv⟩ := exists_value hc
      rw [emit_capture, Capture.emitted_of_get? hv, Emitted.append, ih hnext]
      rfl
  | group inner next ihInner ihNext =>
      simp only [emit, Emitted.append, ihNext h]
      split
      · next hinner =>
          rw [ihInner (contains_of_includable hinner)]
          rfl
      · rfl

theorem contains_of_missing_emit {s : Segments} (h : (s.emit values wanted).missing = []) :
    ∀ c ∈ s.directCaptures, values.contains c.name = true := by
  induction s with
  | done => simp [directCaptures]
  | literal text next ih => exact ih h
  | capture c next ih =>
      rw [emit_capture, Emitted.append] at h
      obtain ⟨hhere, hnext⟩ := List.append_eq_nil_iff.1 h
      refine List.forall_mem_cons.2 ⟨?_, ih hnext⟩
      cases hv : values.get? c.name with
      | none => simp [Capture.emitted, hv] at hhere
      | some v => simp [Dict.contains, hv]
  | group inner next _ ih =>
      rw [emit, Emitted.append] at h
      exact ih (List.append_eq_nil_iff.1 h).2

theorem used_emit {s : Segments} (h : ∀ c ∈ s.directCaptures, values.contains c.name = true) :
    (s.emit values wanted).used = (s.filling values wanted).captured.map (·.1) := by
  induction s with
  | done => rfl
  | literal text next ih => exact ih h
  | capture c next ih =>
      obtain ⟨hc, hnext⟩ := List.forall_mem_cons.1 h
      obtain ⟨v, hv⟩ := exists_value hc
      rw [emit_capture, Capture.emitted_of_get? hv, Emitted.append, ih hnext]
      rfl
  | group inner next ihInner ihNext =>
      simp only [emit, filling, Emitted.append, ihNext h]
      split
      · next hinner =>
          rw [ihInner (contains_of_includable hinner), Walk.captured, List.map_append]
      · rfl

/-- Each capture that takes part stands for its value. -/
theorem unescapeChars_captured {s : Segments}
    (h : ∀ c ∈ s.directCaptures, values.contains c.name = true) :
    ∀ e ∈ (s.filling values wanted).captured, ∃ value, Escape.unescapeChars e.2 = some value ∧
      values.get? e.1 = some (String.ofList value) := by
  induction s with
  | done => simp [filling, Walk.captured]
  | literal text next ih => exact ih h
  | capture c next ih =>
      obtain ⟨hc, hnext⟩ := List.forall_mem_cons.1 h
      obtain ⟨v, hv⟩ := exists_value hc
      rw [filling, Walk.captured, Capture.emitted_of_get? hv]
      refine List.forall_mem_cons.2 ⟨⟨v.toList, c.unescapeChars_escape v, ?_⟩, ih hnext⟩
      rw [hv, String.ofList_toList]
  | group inner next ihInner ihNext =>
      rw [filling]
      split
      · next hinner =>
          exact List.forall_mem_append.2 ⟨ihInner (contains_of_includable hinner), ihNext h⟩
      · exact ihNext h

/-- Each dynamic capture that takes part is written as one segment. -/
theorem escapeWith_captured {s : Segments} (hs : s.Every fun c => c.kind = .dynamic)
    (h : ∀ c ∈ s.directCaptures, values.contains c.name = true) :
    ∀ e ∈ (s.filling values wanted).captured, ∃ value, values.get? e.1 = some value ∧
      e.2 = Escape.escapeWith Escape.isSegmentSafe value.toList := by
  induction s with
  | done => simp [filling, Walk.captured]
  | literal text next ih => exact ih hs h
  | capture c next ih =>
      obtain ⟨hc, hnext⟩ := List.forall_mem_cons.1 h
      obtain ⟨v, hv⟩ := exists_value hc
      have hkind : c.kind = .dynamic := hs.1
      rw [filling, Walk.captured, Capture.emitted_of_get? hv]
      refine List.forall_mem_cons.2 ⟨⟨v, hv, ?_⟩, ih hs.2 hnext⟩
      simp only [Capture.escape, hkind]
  | group inner next ihInner ihNext =>
      rw [filling]
      split
      · next hinner =>
          exact List.forall_mem_append.2
            ⟨ihInner hs.1 (contains_of_includable hinner), ihNext hs.2 h⟩
      · exact ihNext hs.2 h

/-! ### The choices of the walk -/

/-- Groups are written, or left out where the pattern ends. -/
def Written (given : String → Bool) (after : List Char) : Segments → Prop
  | done => True
  | literal _ next => next.Written given after
  | capture _ next => next.Written given after
  | group inner next =>
    (inner.includable given = true ∧ inner.Written given (next.bareText ++ after) ∨
      inner.includable given = false ∧ inner.hasDirect = true ∧ next.bareText ++ after = []) ∧
      next.Written given after

/-- The path goes on as the pattern does, as far as the ends of captures are concerned. -/
def Tracks (after tail : List Char) : Prop :=
  (after = [] → tail = []) ∧ (stops after = true → stops tail = true)

theorem tracks_filling {s : Segments} {after tail : List Char}
    (hs : s.Written (fun n => wanted n && values.contains n) after) (h : Tracks after tail) :
    Tracks (s.bareText ++ after) ((s.filling values wanted).text ++ tail) := by
  induction s generalizing after tail with
  | done => exact h
  | literal text next ih =>
      obtain ⟨hnil, hstops⟩ := ih hs h
      rw [bareText, filling, Walk.text, List.append_assoc, List.append_assoc]
      cases text.toList with
      | nil => exact ⟨hnil, hstops⟩
      | cons x xs => exact ⟨fun h => absurd h (List.cons_ne_nil _ _), id⟩
  | capture c next ih =>
      refine ⟨fun h => absurd h (List.cons_ne_nil _ _), fun hstops => ?_⟩
      simp only [bareText, List.cons_append, stops] at hstops
      cases hkind : c.kind <;> simp [hkind, CaptureKind.marker] at hstops
  | group inner next ihInner ihNext =>
      obtain ⟨hinner, hnext⟩ := hs
      have hrest := ihNext hnext h
      rw [bareText, filling, List.append_assoc]
      rcases hinner with ⟨hwritten, hinner⟩ | ⟨hleft, -, hend⟩
      · rw [if_pos hwritten, Walk.text, List.append_assoc]
        exact ihInner hinner hrest
      · rw [if_neg (by simp [hleft]), Walk.text, hrest.1 hend]
        exact ⟨fun _ => rfl, fun _ => rfl⟩

theorem holds_of_endsBefore {c : Capture} {after tail : List Char}
    (hends : c.kind.endsBefore after = true) (htracks : Tracks after tail) :
    ∀ x ∈ tail.head?, c.charClass.holds x = false := by
  intro x hx
  unfold Capture.charClass
  cases hkind : c.kind with
  | dynamic =>
      rw [hkind] at hends
      have hstops := htracks.2 hends
      cases tail with
      | nil => simp at hx
      | cons y ys =>
          obtain rfl : y = x := by simpa using hx
          exact Capture.holds_segment_of_stop (by simpa [stops] using hstops)
  | glob =>
      rw [hkind] at hends
      have hnil := htracks.1 (List.isEmpty_iff.1 hends)
      simp [hnil] at hx

theorem glob_of_not_greedy {c : Capture} (hc : c.IsPlain) (h : c.isGreedy = false) :
    c.kind = .glob := by
  cases hkind : c.kind with
  | glob => rfl
  | dynamic =>
      simp only [Capture.IsPlain, hkind] at hc
      rw [Capture.isGreedy, hc] at h
      exact absurd h (by decide +kernel)

/-- The walk that is written is the one that the engine takes. A lazy glob needs the end of the
path to be told what to take. -/
theorem leads_filling {s : Segments} {after tail : List Char} {final : Prop}
    (hplain : s.Every Capture.IsPlain) (hsuits : s.Every (Capture.Suits values))
    (hdirect : ∀ c ∈ s.directCaptures, values.contains c.name = true)
    (hwritten : s.Written (fun n => wanted n && values.contains n) after)
    (hsep : s.Separated after) (htracks : Tracks after tail)
    (hfinal : (after = [] → final) ∨ s.Every fun c => c.kind = .dynamic) :
    (s.filling values wanted).Leads tail final := by
  induction s generalizing after tail final with
  | done => trivial
  | literal text next ih => exact ih hplain hsuits hdirect hwritten hsep htracks hfinal
  | capture c next ih =>
      obtain ⟨hc, hnext⟩ := List.forall_mem_cons.1 hdirect
      obtain ⟨v, hv⟩ := exists_value hc
      obtain ⟨hne, hpoint⟩ := hsuits.1 v hv
      have hrest := ih hplain.2 hsuits.2 hnext hwritten hsep.2 htracks
        (hfinal.imp_right And.right)
      have hbehind : Tracks (next.bareText ++ after)
          ((next.filling values wanted).text ++ tail) := tracks_filling hwritten htracks
      rw [filling, Capture.emitted_of_get? hv]
      refine ⟨Capture.escape_ne_nil hne, fun x hx => Capture.holds_escape hpoint hx,
        holds_of_endsBefore hsep.1 hbehind, fun hlazy => ?_, hrest⟩
      -- Only a glob is lazy, and a separated glob stands at the end of the pattern.
      have hglob := glob_of_not_greedy hplain.1 hlazy
      have hends := hsep.1
      rw [hglob] at hends
      obtain ⟨hbare, hafter⟩ := List.append_eq_nil_iff.1 (List.isEmpty_iff.1 hends)
      rcases hfinal with hfinal | hdynamic
      · exact ⟨hbare, hfinal hafter⟩
      · exact absurd (hglob.symm.trans hdynamic.1) (by decide)
  | group inner next ihInner ihNext =>
      obtain ⟨hinner, hnext⟩ := hwritten
      have hrest := ihNext hplain.2 hsuits.2 hdirect hnext hsep.2 htracks
        (hfinal.imp_right And.right)
      have htracks' := tracks_filling hnext htracks
      rw [filling]
      rcases hinner with ⟨hincludable, hinner⟩ | ⟨hleft, hcapture, hend⟩
      · rw [if_pos hincludable]
        refine ⟨ihInner hplain.1 hsuits.1 (contains_of_includable hincludable) hinner hsep.1
          htracks' (hfinal.imp (fun hfinal h => ?_) And.left), hrest⟩
        obtain ⟨hbare, hafter⟩ := List.append_eq_nil_iff.1 h
        exact ⟨hbare, hfinal hafter⟩
      · rw [if_neg (by simp [hleft])]
        exact ⟨hcapture, htracks'.1 hend, hrest⟩

end Segments

namespace Pattern

variable {source : String} {anchored : Bool} {p : Pattern} {values : Params}

theorem generate_eq_ok (wanted : String → Bool)
    (h : ∀ c ∈ p.segments.directCaptures, values.contains c.name = true) :
    p.generate values wanted =
      .ok ⟨String.ofList (p.segments.filling values wanted).text,
        Names.distinct ((p.segments.filling values wanted).captured.map (·.1))⟩ := by
  rw [generate, Emitted.result, Segments.missing_emit h, Segments.text_emit,
    Segments.used_emit h]
  rfl

/-- What is generated is the text of the walk that the values pick. -/
theorem path_of_generate {wanted : String → Bool} {g : Generated}
    (h : p.generate values wanted = .ok g) :
    (∀ c ∈ p.segments.directCaptures, values.contains c.name = true) ∧
      g.path = String.ofList (p.segments.filling values wanted).text := by
  have hmissing : (p.segments.emit values wanted).missing = [] := by
    rw [generate, Emitted.result] at h
    split at h
    · next hempty => exact List.isEmpty_iff.1 hempty
    · cases h
  have hdirect := Segments.contains_of_missing_emit hmissing
  rw [generate_eq_ok wanted hdirect] at h
  cases h
  exact ⟨hdirect, rfl⟩

/-- What is written for a separated pattern is matched back to the values that were written. -/
theorem exists_matchPath_filling (hp : p.Plain source anchored) (hsep : isSeparated source = true)
    (hfinal : anchored = true ∨ p.segments.Every fun c => c.kind = .dynamic)
    {wanted : String → Bool} (hsuits : p.segments.Every (Capture.Suits values))
    (hdirect : ∀ c ∈ p.segments.directCaptures, values.contains c.name = true)
    (hwritten : p.segments.Written (fun n => wanted n && values.contains n) []) :
    ∃ params,
      p.matchPath (String.ofList (p.segments.filling values wanted).text) = some ⟨params, ""⟩ ∧
      ∀ n, params.get? n =
        if n ∈ (p.segments.filling values wanted).captured.map (·.1) then values.get? n
        else none := by
  have htracks : Segments.Tracks [] [] := ⟨id, id⟩
  have hleads : (p.segments.filling values wanted).Leads [] (anchored = true) :=
    Segments.leads_filling hp.captures hsuits hdirect hwritten (hp.separated hsep) htracks
      (hfinal.imp_left fun h _ => h)
  have hvalues : ∀ e ∈ (p.segments.filling values wanted).captured, ∃ value,
      Escape.unescapeChars e.2 = some value ∧ values.get? e.1 = some (String.ofList value) :=
    Segments.unescapeChars_captured hdirect
  have hempty : ∀ n v, (Dict.empty : Params).get? n = some v → values.get? n = some v := by simp
  obtain ⟨params, hgather⟩ := exists_gather hvalues hempty
  refine ⟨params, ?_, fun n => ?_⟩
  · rw [matchPath_of_leads hp hleads String.toList_ofList, hgather]
    rfl
  · split
    · next hn =>
        obtain ⟨⟨_, raw⟩, hmem, rfl⟩ := List.mem_map.1 hn
        obtain ⟨value, hraw, hvalue⟩ := hvalues _ hmem
        obtain ⟨value', hraw', hget⟩ := get?_of_gather_of_mem hgather hmem
        cases hraw.symm.trans hraw'
        rw [hget, hvalue]
    · next hn => rw [get?_of_gather_of_not_mem hgather hn, Dict.get?_empty]

/-- What is written for a separated pattern is matched back to the values, if all of them are
written. -/
theorem matchPath_filling (hp : p.Plain source anchored) (hsep : isSeparated source = true)
    (hfinal : anchored = true ∨ ∀ o ∈ p.segments.occurrences false, o.capture.kind = .dynamic)
    {wanted : String → Bool}
    (hsuits : ∀ o ∈ p.segments.occurrences false, o.capture.Suits values)
    (hdirect : ∀ c ∈ p.segments.directCaptures, values.contains c.name = true)
    (hwritten : p.segments.Written (fun n => wanted n && values.contains n) [])
    (hkeys : ∀ n ∈ values.keys, n ∈ (p.segments.filling values wanted).captured.map (·.1)) :
    p.matchPath (String.ofList (p.segments.filling values wanted).text) = some ⟨values, ""⟩ := by
  obtain ⟨params, hmatch, hget⟩ := exists_matchPath_filling hp hsep
    (hfinal.imp_right Segments.every_of_occurrences) (Segments.every_of_occurrences hsuits) hdirect
    hwritten
  have hall : params = values := by
    refine Dict.ext_get? fun n => ?_
    rw [hget]
    split
    · rfl
    · next hn =>
        have hkey : n ∉ values.keys := fun h => hn (hkeys n h)
        rw [Dict.mem_keys, Dict.contains, Bool.not_eq_true, Option.isSome_eq_false_iff,
          Option.isNone_iff_eq_none] at hkey
        exact hkey.symm
  rw [hmatch, hall]

end Pattern

end RouteEngine
