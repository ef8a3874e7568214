import RouteEngine.Proofs.Pattern.Captured
import RouteEngine.Proofs.Pattern.Required

/-!
What the text of a pattern's expression says about the pattern. The text is a run of marks: quoted
characters, captures and the ends of groups. No mark can be taken for another one, not even a
capture with any expression in it, because an expression that can be read by itself ends at the
parenthesis that closes its capture. So two patterns with the same text have the same marks
(`marks_injective`), and their slots stand for the same groups of one expression
(`slots_of_regexText`); only the names may differ. Both match a path then, unless captures that just
one of them gives the same name stand for different values (`disagrees_of_matchPath`).
-/

namespace RouteEngine

open Outcome Regex

/-- A piece of the text of an expression. -/
inductive Mark
  | char (c : Char)
  | capture (regex : String)
  | opening
  | closing

namespace Mark

def print : Mark → List Char
  | char c => quoteChar c
  | capture regex => '(' :: regex.toList ++ [')']
  | opening => "(?:".toList
  | closing => ")?".toList

/-- The expression of a capture can be read by itself and for a whole value. -/
def IsRead : Mark → Prop
  | capture regex =>
    (∃ r, Regex.parse regex = .ok r) ∧ ∃ w, Regex.parseWhole regex = .ok w
  | _ => True

variable {regex regex' : String} {c d : Char} {x y z : List Char} {m m' : Mark}

/-- An expression does not go on behind a parenthesis with which another one is closed. -/
theorem ne_append_parenthesis (h : (capture regex).IsRead) (h' : (capture regex').IsRead)
    (z : List Char) : regex'.toList ≠ regex.toList ++ ')' :: z := by
  obtain ⟨⟨r, hr⟩, w, hw⟩ := h
  obtain ⟨⟨r', hr'⟩, -⟩ := h'
  obtain ⟨p, hp, -⟩ := readAlone_of_parse hr
  obtain ⟨p', hp', -⟩ := readAlone_of_parse hr'
  intro heq
  rw [readAlone, heq] at hp'
  obtain ⟨-, hrest⟩ := readAlternatives_enclosed (d := 0) hp hw rfl hp'
  cases hrest

theorem capture_injective (h : (capture regex).IsRead) (h' : (capture regex').IsRead)
    (heq : regex.toList ++ ')' :: x = regex'.toList ++ ')' :: y) : regex = regex' ∧ x = y := by
  rcases List.append_eq_append_iff.1 heq with ⟨z, hz, hx⟩ | ⟨z, hz, hy⟩
  · cases z with
    | nil =>
        rw [List.append_nil, String.toList_inj] at hz
        exact ⟨hz.symm, (List.cons.inj hx).2⟩
    | cons e z =>
        obtain ⟨rfl, -⟩ := List.cons.inj hx
        exact absurd hz (ne_append_parenthesis h h' z)
  · cases z with
    | nil =>
        rw [List.append_nil, String.toList_inj] at hz
        exact ⟨hz, (List.cons.inj hy).2.symm⟩
    | cons e z =>
        obtain ⟨rfl, -⟩ := List.cons.inj hy
        exact absurd hz (ne_append_parenthesis h' h z)

theorem quoteChar_cases (c : Char) :
    isMeta c = true ∧ quoteChar c = ['\\', c] ∨ isMeta c = false ∧ quoteChar c = [c] := by
  unfold quoteChar
  cases isMeta c
  · exact .inr ⟨rfl, rfl⟩
  · exact .inl ⟨rfl, rfl⟩

theorem quoteChar_injective (heq : quoteChar c ++ x = quoteChar d ++ y) : c = d ∧ x = y := by
  rcases quoteChar_cases c with ⟨hc, hquote⟩ | ⟨hc, hquote⟩ <;>
    rcases quoteChar_cases d with ⟨hd, hquote'⟩ | ⟨hd, hquote'⟩ <;>
      rw [hquote, hquote'] at heq
  · cases heq
    exact ⟨rfl, rfl⟩
  · cases heq
    exact absurd hd (by decide)
  · cases heq
    exact absurd hc (by decide)
  · cases heq
    exact ⟨rfl, rfl⟩

/-- A parenthesis that begins a mark is no quoted character. -/
theorem quoteChar_ne (hd : isMeta d = true) (hne : d ≠ '\\') : quoteChar c ++ x ≠ d :: y := by
  intro heq
  rcases quoteChar_cases c with ⟨-, hquote⟩ | ⟨hc, hquote⟩ <;> rw [hquote] at heq
  · exact hne (List.cons.inj heq).1.symm
  · rw [(List.cons.inj heq).1, hd] at hc
    cases hc

/-- What is captured does not begin like a group of the pattern. -/
theorem capture_ne_opening (h : (capture regex).IsRead) :
    (capture regex).print ++ x ≠ opening.print ++ y := by
  obtain ⟨⟨r, hr⟩, -⟩ := h
  obtain ⟨p, hp, -⟩ := readAlone_of_parse hr
  have hhead := head?_ne_question hp
  intro heq
  change '(' :: (regex.toList ++ [')'] ++ x) = '(' :: '?' :: ':' :: y at heq
  obtain ⟨-, heq⟩ := List.cons.inj heq
  cases hregex : regex.toList with
  | nil =>
      rw [hregex] at heq
      cases heq
  | cons e es =>
      rw [hregex] at heq hhead
      exact hhead (congrArg some (List.cons.inj heq).1)

/-- Marks can be told from one another, whatever follows them. -/
theorem print_injective (h : m.IsRead) (h' : m'.IsRead) (heq : m.print ++ x = m'.print ++ y) :
    m = m' ∧ x = y := by
  cases m with
  | char c =>
      cases m' with
      | char d =>
          obtain ⟨rfl, hrest⟩ := quoteChar_injective heq
          exact ⟨rfl, hrest⟩
      | capture => exact absurd heq (quoteChar_ne (by decide) (by decide))
      | opening => exact absurd heq (quoteChar_ne (by decide) (by decide))
      | closing => exact absurd heq (quoteChar_ne (by decide) (by decide))
  | capture regex =>
      cases m' with
      | char d => exact absurd heq.symm (quoteChar_ne (by decide) (by decide))
      | capture regex' =>
          simp only [print, List.cons_append, List.append_assoc] at heq
          obtain ⟨rfl, hrest⟩ := capture_injective h h' (List.cons.inj heq).2
          exact ⟨rfl, hrest⟩
      | opening => exact absurd heq (capture_ne_opening h)
      | closing => cases heq
  | opening =>
      cases m' with
      | char d => exact absurd heq.symm (quoteChar_ne (by decide) (by decide))
      | capture => exact absurd heq.symm (capture_ne_opening h')
      | opening => exact ⟨rfl, List.append_cancel_left heq⟩
      | closing => cases heq
  | closing =>
      cases m' with
      | char d => exact absurd heq.symm (quoteChar_ne (by decide) (by decide))
      | capture => cases heq
      | opening => cases heq
      | closing => exact ⟨rfl, List.append_cancel_left heq⟩

theorem print_ne_nil (m : Mark) : m.print ≠ [] := by
  cases m with
  | char c => rcases quoteChar_cases c with ⟨-, h⟩ | ⟨-, h⟩ <;> simp [print, h]
  | capture => exact List.cons_ne_nil _ _
  | opening => exact List.cons_ne_nil _ _
  | closing => exact List.cons_ne_nil _ _

theorem marks_injective {ms ms' : List Mark} (h : ∀ m ∈ ms, m.IsRead) (h' : ∀ m ∈ ms', m.IsRead)
    (heq : ms.flatMap print = ms'.flatMap print) : ms = ms' := by
  induction ms generalizing ms' with
  | nil =>
      cases ms' with
      | nil => rfl
      | cons m' ms' => exact absurd (List.append_eq_nil_iff.1 heq.symm).1 m'.print_ne_nil
  | cons m ms ih =>
      cases ms' with
      | nil => exact absurd (List.append_eq_nil_iff.1 heq).1 m.print_ne_nil
      | cons m' ms' =>
          obtain ⟨hm, hms⟩ := List.forall_mem_cons.1 h
          obtain ⟨hm', hms'⟩ := List.forall_mem_cons.1 h'
          obtain ⟨rfl, hrest⟩ := print_injective hm hm' heq
          rw [ih hms hms' hrest]

/-- The expression of a capture. -/
def expression? : Mark → Option String
  | capture regex => some regex
  | _ => none

end Mark

namespace Segments

def marks : Segments → List Mark
  | done => []
  | literal text next => text.toList.map .char ++ next.marks
  | capture c next => .capture c.regex :: next.marks
  | group inner next => .opening :: inner.marks ++ .closing :: next.marks

theorem print_marks (s : Segments) : s.marks.flatMap Mark.print = s.regexChars := by
  induction s with
  | done => rfl
  | literal text next ih =>
      rw [marks, List.flatMap_append, ih, List.flatMap_map]
      rfl
  | capture c next ih => simp [marks, ih, Mark.print, regexChars]
  | group inner next ihInner ihNext =>
      simp [marks, ihInner, ihNext, Mark.print, regexChars]

theorem isRead_marks {s : Segments}
    (hs : s.Every fun c => (Mark.capture c.regex).IsRead) : ∀ m ∈ s.marks, m.IsRead := by
  induction s with
  | done => simp [marks]
  | literal text next ih =>
      intro m hm
      rcases List.mem_append.1 hm with hm | hm
      · obtain ⟨c, -, rfl⟩ := List.mem_map.1 hm
        trivial
      · exact ih hs m hm
  | capture c next ih => exact List.forall_mem_cons.2 ⟨hs.1, ih hs.2⟩
  | group inner next ihInner ihNext =>
      intro m hm
      rcases List.mem_append.1 hm with hm | hm
      · rcases List.mem_cons.1 hm with rfl | hm
        · trivial
        · exact ihInner hs.1 m hm
      · rcases List.mem_cons.1 hm with rfl | hm
        · trivial
        · exact ihNext hs.2 m hm

/-- The captures of a tree are among its marks, in their order. -/
theorem expressions_marks (s : Segments) (optional : Bool) :
    s.marks.filterMap Mark.expression? = (s.occurrences optional).map (·.capture.regex) := by
  induction s generalizing optional with
  | done => rfl
  | literal text next ih =>
      have hnone : (text.toList.map Mark.char).filterMap Mark.expression? = [] := by
        rw [List.filterMap_map]
        exact List.filterMap_eq_nil_iff.2 fun _ _ => rfl
      rw [marks, List.filterMap_append, hnone, List.nil_append]
      exact ih optional
  | capture c next ih => exact congrArg (c.regex :: ·) (ih optional)
  | group inner next ihInner ihNext =>
      rw [marks, List.filterMap_append, occurrences, List.map_append, ← ihInner true,
        ← ihNext optional]
      rfl

/-- Numbers depend on the expressions alone. -/
theorem map_snd_numberFrom_congr {count : Capture → Nat} {cs ds : List Capture}
    (hcount : ∀ c d : Capture, c.regex = d.regex → count c = count d)
    (h : cs.map (·.regex) = ds.map (·.regex)) (first : Nat) :
    (numberFrom count first cs).map (·.2) = (numberFrom count first ds).map (·.2) := by
  induction cs generalizing ds first with
  | nil =>
      obtain rfl := List.map_eq_nil_iff.1 h.symm
      rfl
  | cons c cs ih =>
      cases ds with
      | nil => cases h
      | cons d ds =>
          obtain ⟨hregex, htail⟩ := List.cons.inj h
          simp only [numberFrom, List.map_cons, hcount c d hregex, ih htail]

end Segments

namespace Pattern

variable {source source' : String} {requirements requirements' : Dict String}
  {anchored anchored' : Bool} {p q : Pattern}

theorem regexText_of_compile (hp : compile source requirements anchored = .ok p) :
    p.regexText = String.ofList (regexTextOf p.anchored p.segments) := by
  obtain ⟨tree, -, h⟩ := bind_eq_ok.1 hp
  simp only at h
  split at h
  · cases h
  · obtain ⟨checked, -, h⟩ := bind_eq_ok.1 h
    obtain ⟨⟨slots, count⟩, -, h⟩ := bind_eq_ok.1 h
    simp only at h
    split at h
    · cases h
    · cases pure_eq_ok.1 h
      rfl

theorem isRead_of_compile (hp : compile source requirements anchored = .ok p) :
    ∀ m ∈ p.segments.marks, m.IsRead := by
  refine Segments.isRead_marks (((exists_parseWhole_of_compile hp).and
    (compiledBy_of_compile hp).2).imp ?_)
  exact fun c hc => ⟨⟨_, hc.2⟩, hc.1⟩

theorem map_group_slots (hp : compile source requirements anchored = .ok p) :
    p.slots.map (·.group) = (Segments.numberFrom (fun c => c.inside.groupCount) 1
      ((p.segments.occurrences false).map (·.capture))).map (·.2) := by
  obtain ⟨_, _, _, -, -, -, -, hslots, -⟩ := compile_eq_ok hp
  rw [(Segments.slots_eq_ok hslots).2.1, List.map_map, Segments.numberedBy_eq_numberFrom _ false]
  rfl

/-- Patterns whose expressions have the same text match by the same expression, and their slots
stand for the same groups of it in the same order. -/
theorem slots_of_regexText (hp : compile source requirements anchored = .ok p)
    (hq : compile source' requirements' anchored' = .ok q) (hanchored : p.anchored = q.anchored)
    (htext : p.regexText = q.regexText) :
    p.regex = q.regex ∧ p.slots.map (·.group) = q.slots.map (·.group) := by
  obtain ⟨_, _, _, -, -, -, -, -, hparse, -, hsame, -⟩ := compile_eq_ok hp
  obtain ⟨_, _, _, -, -, -, -, -, hparse', -, hsame', -⟩ := compile_eq_ok hq
  rw [regexText_of_compile hp, regexText_of_compile hq, String.ofList_inj] at htext
  rw [← hsame, htext] at hparse
  rw [← hsame', hparse] at hparse'
  refine ⟨Except.ok.inj hparse', ?_⟩
  rw [regexTextOf, regexTextOf, hanchored] at htext
  have hchars : p.segments.regexChars = q.segments.regexChars :=
    List.append_cancel_right (List.cons.inj htext).2
  rw [← Segments.print_marks, ← Segments.print_marks] at hchars
  have hmarks := Mark.marks_injective (isRead_of_compile hp) (isRead_of_compile hq) hchars
  have hregexes := congrArg (List.filterMap Mark.expression?) hmarks
  rw [Segments.expressions_marks _ false, Segments.expressions_marks _ false] at hregexes
  rw [map_group_slots hp, map_group_slots hq]
  apply Segments.map_snd_numberFrom_congr
  · intro c d hregex
    rw [Capture.inside, Capture.inside, hregex]
  · rw [List.map_map, List.map_map]
    exact hregexes

/-! ### Matching -/

/-- Captures of one name in `p` are of one name in `q`; the patterns have the same slots but for
their names. -/
def NamesAlike (p q : Pattern) : Prop :=
  ∀ a ∈ p.slots.zip q.slots, ∀ b ∈ p.slots.zip q.slots, a.1.name = b.1.name → a.2.name = b.2.name

instance (p q : Pattern) : Decidable (p.NamesAlike q) :=
  inferInstanceAs (Decidable (∀ a ∈ p.slots.zip q.slots, ∀ b ∈ p.slots.zip q.slots,
    a.1.name = b.1.name → a.2.name = b.2.name))

/-- Two captures of one name in `p` that are of two names in `q` stand for different values. -/
def Disagrees (p q : Pattern) (path : String) : Prop :=
  ∃ found, p.regex.search path.toList = some found ∧
    ∃ a ∈ p.slots.zip q.slots, ∃ b ∈ p.slots.zip q.slots,
      a.1.name = b.1.name ∧ a.2.name ≠ b.2.name ∧
      ∃ u v, found.group? path.toList a.1.group = some u ∧
        found.group? path.toList b.1.group = some v ∧
        Escape.unescapeChars u ≠ Escape.unescapeChars v

theorem not_disagrees_of_namesAlike (h : p.NamesAlike q) (path : String) :
    ¬ p.Disagrees q path := by
  rintro ⟨_, -, a, ha, b, hb, hname, hne, -⟩
  exact hne (h a ha b hb hname)

variable {found : Found} {cs : List Char} {slots slots' : List Slot} {name : String}
  {raw : List Char}

theorem exists_mem_zip (h : slots.map (·.group) = slots'.map (·.group)) {a : Slot}
    (ha : a ∈ slots) : ∃ b, (a, b) ∈ slots.zip slots' ∧ b.group = a.group := by
  induction slots generalizing slots' with
  | nil => cases ha
  | cons c slots ih =>
      cases slots' with
      | nil => cases h
      | cons c' slots' =>
          obtain ⟨hc, hrest⟩ := List.cons.inj h
          rcases List.mem_cons.1 ha with rfl | ha
          · exact ⟨c', List.mem_cons_self, hc.symm⟩
          · obtain ⟨b, hb, hgroup⟩ := ih hrest ha
            exact ⟨b, List.mem_cons_of_mem _ hb, hgroup⟩

theorem mem_slotTexts : (name, raw) ∈ slotTexts found cs slots ↔
    ∃ s ∈ slots, s.name = name ∧ found.group? cs s.group = some raw := by
  rw [slotTexts, List.mem_filterMap]
  refine exists_congr fun s => and_congr_right fun _ => ?_
  rw [Option.map_eq_some_iff]
  constructor
  · rintro ⟨raw, hraw, heq⟩
    cases heq
    exact ⟨rfl, hraw⟩
  · rintro ⟨rfl, hraw⟩
    exact ⟨raw, hraw, rfl⟩

/-- Where the values are known by the names of other slots with the same groups, the text of a slot
has the value that is known for it there. -/
theorem exists_known_of_gather (h : slots.map (·.group) = slots'.map (·.group)) {params : Params}
    (hparams : gather (slotTexts found cs slots') .empty = some params) {a : Slot} (ha : a ∈ slots)
    (hraw : found.group? cs a.group = some raw) :
    ∃ b, (a, b) ∈ slots.zip slots' ∧ ∃ value, Escape.unescapeChars raw = some value ∧
      params.get? b.name = some (String.ofList value) := by
  obtain ⟨b, hab, hgroup⟩ := exists_mem_zip h ha
  have hb : (b.name, raw) ∈ slotTexts found cs slots' :=
    mem_slotTexts.2 ⟨b, (List.of_mem_zip hab).2, rfl, hgroup ▸ hraw⟩
  exact ⟨b, hab, get?_of_gather_of_mem hparams hb⟩

/-- Texts with values are gathered when those of one name have the same value. -/
theorem exists_gather_of_agree {l : List (String × List Char)} {params : Params}
    (hvalues : ∀ e ∈ l, ∃ value, Escape.unescapeChars e.2 = some value)
    (hagree : ∀ e ∈ l, ∀ e' ∈ l, e.1 = e'.1 →
      Escape.unescapeChars e.2 = Escape.unescapeChars e'.2)
    (hparams : ∀ e ∈ l, ∀ known, params.get? e.1 = some known →
      Escape.unescapeChars e.2 = some known.toList) :
    ∃ all, gather l params = some all := by
  -- What is known so far agrees with the texts to come; a text that is taken up keeps it so.
  induction l generalizing params with
  | nil => exact ⟨params, rfl⟩
  | cons e l ih =>
      obtain ⟨name, raw⟩ := e
      obtain ⟨⟨value, hvalue⟩, hvalues⟩ := List.forall_mem_cons.1 hvalues
      obtain ⟨hhere, hparams⟩ := List.forall_mem_cons.1 hparams
      have hagree' := fun e he e' he' =>
        hagree e (List.mem_cons_of_mem _ he) e' (List.mem_cons_of_mem _ he')
      simp only at hvalue hhere
      simp only [gather, hvalue]
      cases hknown : params.get? name with
      | some known =>
          have heq : known = String.ofList value := by
            have hsame := hhere known hknown
            rw [hvalue, Option.some.injEq] at hsame
            rw [hsame, String.ofList_toList]
          simp only [heq, if_true]
          exact ih hvalues hagree' hparams
      | none =>
          refine ih hvalues hagree' fun e he known hget => ?_
          rw [Dict.get?_insert] at hget
          split at hget
          · next hname =>
              cases hget
              rw [← hagree _ List.mem_cons_self e (List.mem_cons_of_mem _ he) hname, hvalue,
                String.toList_ofList]
          · exact hparams e he known hget

/-- A path that one of two patterns with the same expression matches the other matches too, unless
captures that only the other gives one name disagree there. -/
theorem disagrees_of_matchPath (hregex : p.regex = q.regex)
    (hgroups : p.slots.map (·.group) = q.slots.map (·.group)) (hanchored : p.anchored = q.anchored)
    {path : String} {captured : Captured} (hq : q.matchPath path = some captured)
    (hp : p.matchPath path = none) : p.Disagrees q path := by
  rw [matchPath, ← hregex, ← hanchored] at hq
  rw [matchPath] at hp
  simp only at hq hp
  split at hq
  · cases hq
  · next found hfound =>
      rw [hfound] at hp
      simp only at hp
      split at hq
      · cases hq
      · next hstops =>
          rw [if_neg hstops, Option.map_eq_none_iff, collect_eq_gather] at hp
          obtain ⟨params, hparams, -⟩ := Option.map_eq_some_iff.1 hq
          rw [collect_eq_gather] at hparams
          have hvalues : ∀ e ∈ slotTexts found path.toList p.slots,
              ∃ value, Escape.unescapeChars e.2 = some value := by
            rintro ⟨name, raw⟩ he
            obtain ⟨a, ha, -, hraw⟩ := mem_slotTexts.1 he
            obtain ⟨_, -, value, hvalue, -⟩ := exists_known_of_gather hgroups hparams ha hraw
            exact ⟨value, hvalue⟩
          by_contra hnot
          have hagree : ∀ e ∈ slotTexts found path.toList p.slots,
              ∀ e' ∈ slotTexts found path.toList p.slots, e.1 = e'.1 →
                Escape.unescapeChars e.2 = Escape.unescapeChars e'.2 := by
            rintro ⟨name, u⟩ hu ⟨name', v⟩ hv hname
            obtain ⟨a, ha, rfl, hu'⟩ := mem_slotTexts.1 hu
            obtain ⟨b, hb, rfl, hv'⟩ := mem_slotTexts.1 hv
            obtain ⟨a', haa', x, hx, hget⟩ := exists_known_of_gather hgroups hparams ha hu'
            obtain ⟨b', hbb', y, hy, hget'⟩ := exists_known_of_gather hgroups hparams hb hv'
            by_contra hne
            refine hnot ⟨found, hfound, _, haa', _, hbb', hname, fun hsame => hne ?_, u, v, hu',
              hv', hne⟩
            simp only at hsame
            rw [hsame, hget', Option.some.injEq, String.ofList_inj] at hget
            simp only [hx, hy, hget]
          obtain ⟨all, hall⟩ := @exists_gather_of_agree _ .empty hvalues hagree (by simp)
          rw [hp] at hall
          cases hall

end Pattern

end RouteEngine
