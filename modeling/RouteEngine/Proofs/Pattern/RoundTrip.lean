import RouteEngine.Proofs.Pattern.Filling

/-!
Matching and generating undo each other. Both directions compare walks: what is written with all
names wanted is the walk on which every group is entered, and a match goes along the walk that
its own values fill. Patterns are compiled without requirements throughout.
-/

namespace RouteEngine

open Outcome

namespace Segments

variable {given : String → Bool} {values : Params}

/-! ### Groups that have all they need -/

theorem all_directCaptures {s : Segments} {optional : Bool}
    (h : ∀ o ∈ s.occurrences optional, given o.capture.name = true) :
    s.directCaptures.all (fun c => given c.name) = true := by
  rw [List.all_eq_true]
  intro c hc
  exact h _ (mem_occurrences_of_mem_directCaptures hc optional)

theorem anyWritable_of_given {s : Segments} {optional : Bool}
    (h : ∀ o ∈ s.occurrences optional, given o.capture.name = true) (hgroup : s.hasGroup = true) :
    s.anyWritable given = true := by
  induction s generalizing optional with
  | done => simp [hasGroup] at hgroup
  | literal _ next ih => exact ih h hgroup
  | capture c next ih =>
      obtain ⟨-, hnext⟩ := List.forall_mem_cons.1 h
      exact ih hnext hgroup
  | group inner next ihInner _ =>
      obtain ⟨hinner, -⟩ := List.forall_mem_append.1 h
      have hwritable : isWritable given inner (inner.anyWritable given) = true := by
        rw [isWritable, all_directCaptures hinner]
        cases hnested : inner.hasGroup with
        | false => simp
        | true => simp [ihInner hinner hnested]
      rw [anyWritable, hwritable, Bool.true_or]

theorem includable_of_given {inner : Segments}
    (h : ∀ o ∈ inner.occurrences true, given o.capture.name = true) :
    inner.includable given = true := by
  rw [includable, isWritable, all_directCaptures h]
  cases hnested : inner.hasGroup with
  | false => simp
  | true => simp [anyWritable_of_given h hnested]

theorem written_of_given {s : Segments} {optional : Bool} {after : List Char}
    (h : ∀ o ∈ s.occurrences optional, given o.capture.name = true) : s.Written given after := by
  induction s generalizing optional after with
  | done => trivial
  | literal _ next ih => exact ih h
  | capture c next ih =>
      obtain ⟨-, hnext⟩ := List.forall_mem_cons.1 h
      exact ih hnext
  | group inner next ihInner ihNext =>
      obtain ⟨hinner, hnext⟩ := List.forall_mem_append.1 h
      exact ⟨.inl ⟨includable_of_given hinner, ihInner hinner⟩, ihNext hnext⟩

/-- When every name is given every capture takes part. -/
theorem captured_of_given {wanted : String → Bool} {s : Segments} {optional : Bool}
    (h : ∀ o ∈ s.occurrences optional, (wanted o.capture.name && values.contains o.capture.name)) :
    (s.filling values wanted).captured.map (·.1) =
      (s.occurrences optional).map fun o => o.capture.name := by
  induction s generalizing optional with
  | done => rfl
  | literal _ next ih => exact ih h
  | capture c next ih =>
      obtain ⟨-, hnext⟩ := List.forall_mem_cons.1 h
      rw [filling, Walk.captured, List.map_cons, occurrences, List.map_cons, ih hnext]
  | group inner next ihInner ihNext =>
      obtain ⟨hinner, hnext⟩ := List.forall_mem_append.1 h
      rw [filling, if_pos (includable_of_given hinner), Walk.captured, List.map_append,
        occurrences, List.map_append, ihInner hinner, ihNext hnext]

end Segments

/-! ### Matching what was written -/

namespace Pattern

variable {source : String} {p : Pattern}

theorem mem_names {n : String} :
    n ∈ p.names ↔ ∃ o ∈ p.segments.occurrences false, o.capture.name = n := by
  rw [names, Segments.names, Names.mem_distinct, List.mem_map]

/-- Filling a separated pattern with a non-empty value for every name, free of points where the
capture is dynamic, gives a path that is matched back to these values, with nothing left over.
Groups may nest in any way, and names may be repeated. -/
theorem matchPath_generate {values : Params} (hp : compile source .empty true = .ok p)
    (hsep : isSeparated source = true) (hkeys : ∀ n, n ∈ values.keys ↔ n ∈ p.names)
    (hvalues : ∀ o ∈ p.segments.occurrences false, o.capture.Suits values) :
    ∃ g, p.generate values (fun _ => true) = .ok g ∧ p.matchPath g.path = some ⟨values, ""⟩ := by
  have hplain := plain_of_compile hp
  have hgiven : ∀ o ∈ p.segments.occurrences false,
      (true && values.contains o.capture.name) = true := by
    intro o ho
    rw [Bool.true_and, ← Dict.mem_keys, hkeys, mem_names]
    exact ⟨o, ho, rfl⟩
  have hdirect : ∀ c ∈ p.segments.directCaptures, values.contains c.name = true :=
    fun c hc => hgiven _ (Segments.mem_occurrences_of_mem_directCaptures hc false)
  refine ⟨_, generate_eq_ok _ hdirect, ?_⟩
  refine matchPath_filling hplain hsep (.inl rfl) hvalues hdirect
    (Segments.written_of_given hgiven) fun n hn => ?_
  obtain ⟨o, ho, rfl⟩ := mem_names.1 ((hkeys n).1 hn)
  rw [Segments.captured_of_given hgiven]
  exact List.mem_map_of_mem ho

/-- A page of a book, with a format and a file in it. -/
def bookSource : String := "/:lang(/:book(/page-:page(.:format(/*file))))"

def bookValues : Params :=
  Dict.ofList [("lang", "en us"), ("book", "a/b?"), ("page", "7%"), ("format", "é"),
    ("file", "x/y.z")]

theorem matchPath_generate_book :
    ∃ p g, compile bookSource .empty true = .ok p ∧
      p.generate bookValues (fun _ => true) = .ok g ∧
      p.matchPath g.path = some ⟨bookValues, ""⟩ := by
  have hcheck : ((compile bookSource .empty true).toOption.any fun p =>
      decide (bookValues.keys.Perm p.names ∧
        ∀ o ∈ p.segments.occurrences false, o.capture.Suits bookValues)) = true := by
    decide +kernel
  obtain ⟨p, hp, h⟩ := exists_ok_of_any hcheck
  obtain ⟨hkeys, hvalues⟩ := of_decide_eq_true h
  obtain ⟨g, hg, hmatch⟩ :=
    matchPath_generate hp (by decide +kernel) (fun _ => hkeys.mem_iff) hvalues
  exact ⟨p, g, hp, hg, hmatch⟩

end Pattern

/-! ### Writing what was matched -/

namespace Walk

variable {s : Segments}

theorem mem_occurrences_of_mem_captured (w : Walk s) (optional : Bool) {n : String}
    (hn : n ∈ w.captured.map (·.1)) :
    n ∈ (s.occurrences optional).map fun o => o.capture.name := by
  induction w generalizing optional with
  | done => exact hn
  | literal _ w ih => exact ih optional hn
  | capture c raw w ih =>
      rw [captured, List.map_cons] at hn
      rcases List.mem_cons.1 hn with rfl | hn
      · exact List.mem_cons_self
      · exact List.mem_cons_of_mem _ (ih optional hn)
  | entered i w ihInner ihNext =>
      rw [captured, List.map_append] at hn
      rw [Segments.occurrences, List.map_append]
      rcases List.mem_append.1 hn with hn | hn
      · exact List.mem_append_left _ (ihInner true hn)
      · exact List.mem_append_right _ (ihNext optional hn)
  | skipped inner w ih =>
      rw [Segments.occurrences, List.map_append]
      exact List.mem_append_right _ (ih optional hn)

/-- Captures outside groups always take part. -/
theorem mem_captured_of_mem_directCaptures (w : Walk s) {c : Capture}
    (hc : c ∈ s.directCaptures) : c.name ∈ w.captured.map (·.1) := by
  induction w with
  | done => simp [Segments.directCaptures] at hc
  | literal _ w ih => exact ih hc
  | capture d raw w ih =>
      rw [captured, List.map_cons]
      rcases List.mem_cons.1 hc with rfl | hc
      · exact List.mem_cons_self
      · exact List.mem_cons_of_mem _ (ih hc)
  | entered i w _ ih =>
      rw [captured, List.map_append]
      exact List.mem_append_right _ (ih hc)
  | skipped inner w ih => exact ih hc

/-- A text within the class of its capture that needs no escapes stands for itself. -/
theorem escape_of_safe {c : Capture} {raw value : List Char}
    (hclass : ∀ x ∈ raw, c.charClass.holds x = true)
    (hsafe : ∀ x ∈ raw, Escape.isPathSafe x = true)
    (hvalue : Escape.unescapeChars raw = some value) : c.escape (String.ofList value) = raw := by
  have hpercent : '%' ∉ raw := fun hmem => absurd (hsafe '%' hmem) (by decide)
  rw [(Escape.Spells.of_not_mem hpercent).unescapeChars_eq] at hvalue
  cases hvalue
  unfold Capture.escape
  unfold Capture.charClass at hclass
  cases hkind : c.kind with
  | glob =>
      rw [String.toList_ofList]
      exact Escape.escapeWith_eq_self hsafe
  | dynamic =>
      simp only [hkind] at hclass
      rw [String.toList_ofList]
      refine Escape.escapeWith_eq_self fun x hx => ?_
      have hpath := hsafe x hx
      rw [Escape.isPathSafe, Bool.or_eq_true] at hpath
      rcases hpath with hsegment | hslash
      · exact hsegment
      · have hstop := Capture.holds_segment_of_stop (.inl (of_decide_eq_true hslash))
        rw [hclass x hx] at hstop
        exact absurd hstop (by decide)

/-- The values are those of the captures that take part, and the other captures of the tree have
none. -/
structure Leaves (w : Walk s) (optional : Bool) (values : Params) : Prop where
  given : ∀ e ∈ w.captured, ∃ value, Escape.unescapeChars e.2 = some value ∧
    values.get? e.1 = some (String.ofList value)
  others : ∀ o ∈ s.occurrences optional, o.capture.name ∉ w.captured.map (·.1) →
    values.get? o.capture.name = none

namespace Leaves

variable {inner next : Segments} {i : Walk inner} {w : Walk next} {optional : Bool}
  {values : Params}

theorem of_capture {c : Capture} {raw : List Char}
    (h : (capture c raw w).Leaves optional values)
    (hname : c.name ∉ (next.occurrences optional).map fun o => o.capture.name) :
    w.Leaves optional values where
  given := (List.forall_mem_cons.1 h.given).2
  others o ho hnot := by
    refine h.others o (List.mem_cons_of_mem _ ho) ?_
    rw [captured, List.map_cons, List.mem_cons, not_or]
    refine ⟨fun heq => hname ?_, hnot⟩
    exact List.mem_map.2 ⟨o, ho, heq⟩

/-- The captures inside a group and those behind it do not know of each other. -/
theorem of_entered (h : (entered i w).Leaves optional values)
    (hdisjoint : ∀ a ∈ (inner.occurrences true).map (fun o => o.capture.name),
      ∀ b ∈ (next.occurrences optional).map (fun o => o.capture.name), a ≠ b) :
    i.Leaves true values ∧ w.Leaves optional values := by
  obtain ⟨hinner, hnext⟩ := List.forall_mem_append.1 h.given
  refine ⟨⟨hinner, fun o ho hnot => ?_⟩, ⟨hnext, fun o ho hnot => ?_⟩⟩
  · refine h.others o (List.mem_append_left _ ho) ?_
    rw [captured, List.map_append, List.mem_append, not_or]
    refine ⟨hnot, fun hmem => ?_⟩
    have hbehind := w.mem_occurrences_of_mem_captured optional hmem
    exact hdisjoint _ (List.mem_map_of_mem ho) _ hbehind rfl
  · refine h.others o (List.mem_append_right _ ho) ?_
    rw [captured, List.map_append, List.mem_append, not_or]
    refine ⟨fun hmem => ?_, hnot⟩
    have hinside := i.mem_occurrences_of_mem_captured true hmem
    exact hdisjoint _ hinside _ (List.mem_map_of_mem ho) rfl

theorem of_skipped (h : (skipped inner w).Leaves optional values) : w.Leaves optional values where
  given := h.given
  others := (List.forall_mem_append.1 h.others).2

/-- All captures of a group that was entered have values, so it is written. -/
theorem includable_of_entered (h : i.Leaves true values) (hdirect : inner.hasDirect = true) :
    (inner.includable fun n => true && values.contains n) = true := by
  have hall : inner.directCaptures.all (fun c => true && values.contains c.name) = true := by
    rw [List.all_eq_true]
    intro c hc
    obtain ⟨⟨n, raw⟩, hmem, hname⟩ := List.mem_map.1 (i.mem_captured_of_mem_directCaptures hc)
    obtain ⟨value, -, hget⟩ := h.given _ hmem
    simp only at hname hget
    rw [Bool.true_and, Dict.contains, ← hname, hget]
    rfl
  rw [Segments.includable, Segments.isWritable, hall, hdirect]
  rfl

/-- The own captures of a group that was skipped have no values, so it is not written. -/
theorem includable_of_skipped (h : (skipped inner w).Leaves optional values)
    (hdirect : inner.hasDirect = true)
    (hdisjoint : ∀ a ∈ (inner.occurrences true).map (fun o => o.capture.name),
      ∀ b ∈ (next.occurrences optional).map (fun o => o.capture.name), a ≠ b) :
    (inner.includable fun n => true && values.contains n) = false := by
  obtain ⟨c, hc⟩ := Segments.exists_mem_directCaptures hdirect
  have hmem := Segments.mem_occurrences_of_mem_directCaptures hc true
  have hnone : values.get? c.name = none := by
    refine h.others _ (List.mem_append_left _ hmem) fun hcaptured => ?_
    have hbehind := w.mem_occurrences_of_mem_captured optional hcaptured
    exact hdisjoint _ (List.mem_map_of_mem hmem) _ hbehind rfl
  exact Segments.includable_eq_false hc (by simp [Dict.contains, hnone])

end Leaves

theorem mem_text_of_mem_captured (w : Walk s) {e : String × List Char} (he : e ∈ w.captured)
    {x : Char} (hx : x ∈ e.2) : x ∈ w.text := by
  induction w with
  | done => simp [captured] at he
  | literal _ w ih => exact List.mem_append_right _ (ih he)
  | capture c raw w ih =>
      rcases List.mem_cons.1 he with rfl | he
      · exact List.mem_append_left _ hx
      · exact List.mem_append_right _ (ih he)
  | entered i w ihInner ihNext =>
      rcases List.mem_append.1 he with he | he
      · exact List.mem_append_left _ (ihInner he)
      · exact List.mem_append_right _ (ihNext he)
  | skipped inner w ih => exact ih he

/-- With distinct names and a capture in every group, the values of a walk whose captures need no
escapes fill it again. -/
theorem filling_eq_of_captured (w : Walk s) {values : Params} {optional : Bool} (hfits : w.Fits)
    (hgroups : s.groupsCapture = true)
    (hnames : ((s.occurrences optional).map fun o => o.capture.name).Nodup)
    (hsafe : ∀ e ∈ w.captured, ∀ x ∈ e.2, Escape.isPathSafe x = true)
    (h : w.Leaves optional values) : s.filling values (fun _ => true) = w := by
  -- The induction is on the walk: what it enters is written, what it skips is not.
  induction w generalizing optional with
  | done => rfl
  | literal text w ih =>
      rw [Segments.filling, ih hfits hgroups hnames hsafe ⟨h.given, h.others⟩]
  | capture c raw w ih =>
      obtain ⟨-, hclass, hfits⟩ := hfits
      obtain ⟨hraw, hsafe⟩ := List.forall_mem_cons.1 hsafe
      rw [Segments.occurrences, List.map_cons, List.nodup_cons] at hnames
      obtain ⟨hname, hnames⟩ := hnames
      obtain ⟨value, hvalue, hget⟩ := (List.forall_mem_cons.1 h.given).1
      have hescape := escape_of_safe hclass hraw hvalue
      have hrest := ih hfits hgroups hnames hsafe (h.of_capture hname)
      rw [Segments.filling, Capture.emitted_of_get? hget, hescape, hrest]
  | entered i w ihInner ihNext =>
      obtain ⟨hinside, hsafe⟩ := List.forall_mem_append.1 hsafe
      rw [Segments.occurrences, List.map_append, List.nodup_append] at hnames
      obtain ⟨hinner, hnext, hdisjoint⟩ := hnames
      simp only [Segments.groupsCapture, Bool.and_eq_true] at hgroups
      obtain ⟨⟨hdirect, hnested⟩, hgroups⟩ := hgroups
      obtain ⟨hi, hw⟩ := h.of_entered hdisjoint
      rw [Segments.filling, if_pos (hi.includable_of_entered hdirect),
        ihInner hfits.1 hnested hinner hinside hi, ihNext hfits.2 hgroups hnext hsafe hw]
  | skipped inner w ih =>
      rw [Segments.occurrences, List.map_append, List.nodup_append] at hnames
      obtain ⟨-, hnext, hdisjoint⟩ := hnames
      simp only [Segments.groupsCapture, Bool.and_eq_true] at hgroups
      obtain ⟨⟨hdirect, -⟩, hgroups⟩ := hgroups
      have hleft := h.includable_of_skipped hdirect hdisjoint
      rw [Segments.filling, if_neg (Bool.eq_false_iff.1 hleft),
        ih hfits hgroups hnext hsafe h.of_skipped]

theorem filling_eq (w : Walk s) {values : Params} {optional : Bool} (hfits : w.Fits)
    (hgroups : s.groupsCapture = true)
    (hnames : ((s.occurrences optional).map fun o => o.capture.name).Nodup)
    (hsafe : ∀ x ∈ w.text, Escape.isPathSafe x = true) (h : w.Leaves optional values) :
    s.filling values (fun _ => true) = w :=
  w.filling_eq_of_captured hfits hgroups hnames
    (fun _ he x hx => hsafe x (w.mem_text_of_mem_captured he hx)) h

end Walk

namespace Pattern

variable {source : String} {anchored : Bool} {p : Pattern}

/-- A path that needs no escapes is written again from the values that it is matched to, up to
the part that is left over, and with exactly their names. Names have to be distinct, and every
group has to have a capture of its own to tell whether it took part. -/
theorem generate_matchPath {path rest : String} {params : Params}
    (hp : compile source .empty anchored = .ok p)
    (hnames : ((p.segments.occurrences false).map fun o => o.capture.name).Nodup)
    (hgroups : p.segments.groupsCapture = true) (hpath : Escape.escapePath path = path)
    (h : p.matchPath path = some ⟨params, rest⟩) :
    ∃ g, p.generate params (fun _ => true) = .ok g ∧ g.path ++ rest = path ∧
      g.used.Nodup ∧ ∀ n, n ∈ g.used ↔ n ∈ params.keys := by
  obtain ⟨w, hfits, htext, hgather⟩ := walk_of_matchPath (plain_of_compile hp) h
  have hsafe : ∀ x ∈ path.toList, Escape.isPathSafe x = true := by
    refine Escape.safe_of_escapeWith_eq_self ?_
    rw [← String.toList_inj, Escape.escapePath, String.toList_ofList] at hpath
    exact hpath
  have hgiven : ∀ e ∈ w.captured, ∃ value, Escape.unescapeChars e.2 = some value ∧
      params.get? e.1 = some (String.ofList value) := fun _ he => get?_of_gather_of_mem hgather he
  have hothers : ∀ n, n ∉ w.captured.map (·.1) → params.get? n = none :=
    fun _ hn => get?_of_gather_of_not_mem hgather hn
  have hfilling : p.segments.filling params (fun _ => true) = w := by
    rw [htext] at hsafe
    have hwalk := (List.forall_mem_append.1 hsafe).1
    exact w.filling_eq hfits hgroups hnames hwalk ⟨hgiven, fun o _ => hothers o.capture.name⟩
  have hkeys : ∀ n, n ∈ w.captured.map (·.1) ↔ n ∈ params.keys := by
    intro n
    rw [Dict.mem_keys, Dict.contains]
    refine ⟨fun hn => ?_, fun hn => ?_⟩
    · obtain ⟨e, he, rfl⟩ := List.mem_map.1 hn
      obtain ⟨value, -, hget⟩ := hgiven e he
      rw [hget]
      rfl
    · refine Decidable.byContradiction fun hnot => ?_
      rw [hothers n hnot] at hn
      exact Bool.false_ne_true hn
  have hdirect : ∀ c ∈ p.segments.directCaptures, params.contains c.name = true :=
    fun c hc => Dict.mem_keys.1 ((hkeys _).1 (w.mem_captured_of_mem_directCaptures hc))
  refine ⟨_, generate_eq_ok _ hdirect, ?_, Names.nodup_distinct _, fun n => ?_⟩
  · rw [hfilling, ← String.toList_inj, String.toList_append, String.toList_ofList, htext]
  · rw [hfilling, Names.mem_distinct, hkeys]

theorem generate_matchPath_book :
    ∃ p g, compile "/:lang(/:book(/page-:page)(/*file))" .empty false = .ok p ∧
      p.matchPath "/en/b~1/x+y/z" =
        some ⟨Dict.ofList [("book", "b~1"), ("file", "x+y/z"), ("lang", "en")], ""⟩ ∧
      p.generate (Dict.ofList [("book", "b~1"), ("file", "x+y/z"), ("lang", "en")])
        (fun _ => true) = .ok g ∧ g.path ++ "" = "/en/b~1/x+y/z" := by
  have hcheck : ((compile "/:lang(/:book(/page-:page)(/*file))" .empty false).toOption.any fun p =>
      decide (((p.segments.occurrences false).map fun o => o.capture.name).Nodup ∧
        p.segments.groupsCapture = true ∧ p.matchPath "/en/b~1/x+y/z" =
          some ⟨Dict.ofList [("book", "b~1"), ("file", "x+y/z"), ("lang", "en")], ""⟩)) = true := by
    decide +kernel
  obtain ⟨p, hp, h⟩ := exists_ok_of_any hcheck
  obtain ⟨hnames, hgroups, hmatch⟩ := of_decide_eq_true h
  obtain ⟨g, hg, hpath, -⟩ := generate_matchPath hp hnames hgroups (by decide +kernel) hmatch
  exact ⟨p, g, hp, hmatch, hg, hpath⟩

end Pattern

end RouteEngine
