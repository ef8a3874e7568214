import RouteEngine.Proofs.Regex.Reading
import RouteEngine.Proofs.Regex.Units
import RouteEngine.Regex.Whole

/-!
An expression means the same wherever it is put in parentheses. The four readers that make up a
parser look no further than they read, like all the readers they are built from; only the numbers
of groups depend on what stands before (`ReadersAgree`). So a source that is an expression by
itself, and one between the anchors for whole values, is read as the same expression when it
stands in a group of a longer one (`readAlternatives_enclosed`).
-/

namespace RouteEngine.Regex

open Outcome

variable {z z' t t' r r' : List Char} {f : Flags} {n : Nat}

/-! ### Openings with their numbers -/

def Opening.shift (d : Nat) : Opening → Opening
  | .group i => .group (i + d)
  | .plain f => .plain f
  | .flags f => .flags f

theorem Groups.next_named {g g' : Groups} {name : String} (h : g.named name = .ok g') :
    g'.next = g.next := by
  rw [Groups.named] at h
  split at h
  · simp at h
  · cases h
    rfl

theorem Beginning.open_shift {b : Beginning} {g g' g₁ g₁' : Groups} {o o' : Opening} {d : Nat}
    (h : b.open g = .ok (o, g₁)) (h' : b.open g' = .ok (o', g₁')) (hg : g'.next = g.next + d) :
    o' = o.shift d ∧ g₁'.next = g₁.next + d := by
  cases b with
  | group =>
      cases h
      cases h'
      exact ⟨by simp [Opening.shift, hg], by simp only [hg]; omega⟩
  | named name =>
      obtain ⟨g₂, hname, h⟩ := bind_eq_ok.1 h
      obtain ⟨g₂', hname', h'⟩ := bind_eq_ok.1 h'
      cases pure_eq_ok.1 h
      cases pure_eq_ok.1 h'
      have hnext := Groups.next_named hname
      have hnext' := Groups.next_named hname'
      exact ⟨by simp [Opening.shift, hg], by simp only [hnext, hnext', hg]; omega⟩
  | plain f =>
      cases h
      cases h'
      exact ⟨rfl, hg⟩
  | flags f =>
      cases h
      cases h'
      exact ⟨rfl, hg⟩

/-! ### Taking the readers apart -/

/-- What an opening parenthesis leads to: a group up to its closing parenthesis, or flags for the
rest of the sequence. -/
def ReadsOpened (n : Nat) (f : Flags) (g : Groups) (o : Opening) (s : List Char) (x : Parsed)
    (r : List Char) : Prop :=
  match o with
  | .flags f' => ∃ b, readSequence n f' g s = .ok (b, r) ∧ x = b.behindFlags
  | .plain f' => ∃ a w, readAlternatives n f' g s = .ok (a, w) ∧
      readClosed n f a.groups a.enclosed w = .ok (x, r)
  | .group i => ∃ a w, readAlternatives n f g s = .ok (a, w) ∧
      readClosed n f a.groups (a.captured i) w = .ok (x, r)

/-- A sequence ends here. -/
def EndsSequence (u : List Char) : Prop := ∀ c ∈ u.head?, c = ')' ∨ c = '|'

/-- A unit without groups begins with the character. -/
def beginsUnit (c : Char) : Bool := !(['(', ')', '|', '*', '+', '?', '\x7b'].contains c)

theorem readSequence_eq_ok {g : Groups} {x : Parsed} (h : readSequence n f g t = .ok (x, r)) :
    ∃ m, n = m + 1 ∧ ((EndsSequence (skip f t) ∧ x = ⟨.empty, .empty, f, g⟩ ∧ r = skip f t) ∨
      (∃ u b s o g₁, skip f t = '(' :: u ∧ readBeginning f (skip f u) = .ok (b, s) ∧
        b.open g = .ok (o, g₁) ∧ ReadsOpened m f g₁ o s x r) ∨
      ∃ c u a s, skip f t = c :: u ∧ beginsUnit c = true ∧ readUnit f (c :: u) = .ok (a, s) ∧
        readTail m f g (.unit a) s = .ok (x, r)) := by
  cases n with
  | zero => simp [readSequence] at h
  | succ n =>
      refine ⟨n, rfl, ?_⟩
      rw [readSequence] at h
      generalize skip f t = w at h
      split at h
      · cases h
        exact .inl ⟨by simp [EndsSequence], rfl, rfl⟩
      · cases h
        exact .inl ⟨by simp [EndsSequence], rfl, rfl⟩
      · cases h
        exact .inl ⟨by simp [EndsSequence], rfl, rfl⟩
      · next u =>
          obtain ⟨⟨⟨o, g₁⟩, s⟩, hopen, hrest⟩ := bind_eq_ok.1 h
          rw [readOpening_eq] at hopen
          split at hopen
          · simp at hopen
          · obtain ⟨⟨b, s'⟩, hb, hopen⟩ := bind_eq_ok.1 hopen
            obtain ⟨⟨o', g₁'⟩, hopened, heq⟩ := map_eq_ok.1 hopen
            cases heq
            refine .inr (.inl ⟨u, b, s, o, g₁, rfl, hb, hopened, ?_⟩)
            cases o with
            | flags f' =>
                obtain ⟨⟨y, v⟩, hy, hx⟩ := bind_eq_ok.1 hrest
                cases pure_eq_ok.1 hx
                exact ⟨y, hy, rfl⟩
            | plain f' =>
                obtain ⟨⟨a, v⟩, ha, hclosed⟩ := bind_eq_ok.1 hrest
                exact ⟨a, v, ha, hclosed⟩
            | group i =>
                obtain ⟨⟨a, v⟩, ha, hclosed⟩ := bind_eq_ok.1 hrest
                exact ⟨a, v, ha, hclosed⟩
      · simp at h
      · simp at h
      · simp at h
      · simp at h
      · next u =>
          obtain ⟨⟨c, s⟩, hc, htail⟩ := bind_eq_ok.1 h
          refine .inr (.inr ⟨'[', u, .chars c, s, rfl, rfl, ?_, htail⟩)
          rw [readUnit, hc]
          rfl
      · next u =>
          obtain ⟨a, ha, htail⟩ := bind_eq_ok.1 h
          refine .inr (.inr ⟨'.', u, a, u, rfl, rfl, ?_, htail⟩)
          rw [readUnit, ha]
          rfl
      · next u => exact .inr (.inr ⟨'^', u, _, u, rfl, rfl, rfl, h⟩)
      · next u => exact .inr (.inr ⟨'$', u, _, u, rfl, rfl, rfl, h⟩)
      · next u =>
          obtain ⟨⟨i, s⟩, hi, h⟩ := bind_eq_ok.1 h
          obtain ⟨a, ha, htail⟩ := bind_eq_ok.1 h
          refine .inr (.inr ⟨'\\', u, a, s, rfl, rfl, ?_, htail⟩)
          rw [readUnit, hi]
          change (i.toRegex f >>= fun a => pure (a, s)) = .ok (a, s)
          rw [ha]
          rfl
      · next c u hclose hbar hopen hstar hplus hquestion hbrace hclass hdot hcaret hdollar hescape =>
          obtain ⟨a, ha, htail⟩ := bind_eq_ok.1 h
          refine .inr (.inr ⟨c, u, a, u, rfl, ?_, ?_, htail⟩)
          · simp only [beginsUnit, Bool.not_eq_true', List.contains_eq_mem, decide_eq_false_iff_not,
              List.mem_cons, List.not_mem_nil, or_false]
            rintro (rfl | rfl | rfl | rfl | rfl | rfl | rfl) <;> contradiction
          · rw [readUnit.eq_7 f c u hclass hdot hcaret hdollar hescape, ha]
            rfl

theorem not_endsSequence_of_beginsUnit {c : Char} {u : List Char} (hc : beginsUnit c = true) :
    ¬ EndsSequence (c :: u) := by
  intro h
  rcases h c rfl with rfl | rfl <;> exact absurd hc (by decide)

theorem Ahead.endsSequence (hz : Stop z') (h : Ahead z z' t t') (ht : EndsSequence t) :
    EndsSequence t' := by
  cases h with
  | here => rcases hz with rfl | ⟨w, rfl⟩ <;> simp [EndsSequence]
  | cons c h => exact ht

theorem readClosed_eq_ok {g : Groups} {a : Part} {x : Parsed}
    (h : readClosed n f g a t = .ok (x, r)) :
    ∃ m u, n = m + 1 ∧ t = ')' :: u ∧ readTail m f g a u = .ok (x, r) := by
  cases n with
  | zero => simp [readClosed] at h
  | succ n =>
      rw [readClosed.eq_def] at h
      simp only at h
      split at h
      · next u => exact ⟨n, u, rfl, rfl, h⟩
      · simp at h

/-! ### Agreement -/

/-- What was read once is `x'` when the groups before it are `d` more. -/
structure Parsed.Shifted (d : Nat) (x x' : Parsed) : Prop where
  regex : x'.regex = x.regex.renumber (· + d)
  row : x'.row = x.row
  flags : x'.flags = x.flags
  next : x'.groups.next = x.groups.next + d

theorem Parsed.Shifted.alone {d : Nat} {x x' : Parsed} (h : x.Shifted d x') :
    x.alone.Shifted d x'.alone :=
  ⟨h.regex, congrArg (fun row : Row => Row.single row.depth) h.row, h.flags, h.next⟩

theorem Parsed.Shifted.or {d : Nat} {x x' y y' : Parsed} (hx : x.Shifted d x')
    (hy : y.Shifted d y') : (x.or y).Shifted d (x'.or y') where
  regex := by simp only [Parsed.or, renumber, hx.regex, hy.regex]
  row := by simp only [Parsed.or, hx.row, hy.row]
  flags := hy.flags
  next := hy.next

theorem Parsed.Shifted.cons {d : Nat} {x x' : Parsed} (h : x.Shifted d x') (a : Part) :
    (x.cons a).Shifted d (x'.cons (a.renumber (· + d))) where
  regex := by simp only [Parsed.cons, Part.renumber, renumber, h.regex]
  row := by simp only [Parsed.cons, Part.renumber, h.row]
  flags := h.flags
  next := h.next

theorem Parsed.Shifted.behindFlags {d : Nat} {x x' : Parsed} (h : x.Shifted d x') :
    x.behindFlags.Shifted d x'.behindFlags :=
  ⟨h.regex, congrArg (Row.cons 0) h.row, h.flags, h.next⟩

theorem Parsed.Shifted.enclosed_eq {d : Nat} {x x' : Parsed} (h : x.Shifted d x') :
    x'.enclosed = x.enclosed.renumber (· + d) := by
  simp only [Parsed.enclosed, Part.renumber, h.regex, h.row]

theorem Parsed.Shifted.captured_eq {d : Nat} {x x' : Parsed} (h : x.Shifted d x') (i : Nat) :
    x'.captured (i + d) = (x.captured i).renumber (· + d) := by
  simp only [Parsed.captured, Part.renumber, renumber, h.regex, h.row]

/-- The rest that a reader of groups leaves, and what it reads elsewhere. -/
structure ReadsParsed (R : Nat → Groups → List Char → Parsed × List Char → Prop) (g : Groups)
    (t : List Char) (x : Parsed) (r : List Char) : Prop where
  suffix : r <:+ t
  alike : ∀ ⦃d g' z z' t' x' r'⦄, Stop z' → Ahead z z' t t' → z.length < r.length →
    g'.next = g.next + d → R d g' t' (x', r') → x.Shifted d x' ∧ Ahead z z' r r'

/-- The four readers with so much fuel agree with those that have any fuel. -/
structure ReadersAgree (n : Nat) : Prop where
  alternatives : ∀ {f g t x r}, readAlternatives n f g t = .ok (x, r) →
    ReadsParsed (fun _ g t x => ∃ m, readAlternatives m f g t = .ok x) g t x r
  sequence : ∀ {f g t x r}, readSequence n f g t = .ok (x, r) →
    ReadsParsed (fun _ g t x => ∃ m, readSequence m f g t = .ok x) g t x r
  closed : ∀ {f g a t x r}, readClosed n f g a t = .ok (x, r) →
    ReadsParsed (fun d g t x => ∃ m, readClosed m f g (a.renumber (· + d)) t = .ok x) g t x r
  tail : ∀ {f g a t x r}, readTail n f g a t = .ok (x, r) →
    ReadsParsed (fun d g t x => ∃ m, readTail m f g (a.renumber (· + d)) t = .ok x) g t x r
  /-- A brace behind a unit is taken up together with the blanks behind it. -/
  brace : ∀ {f g a u x r}, readTail n f g a ('\x7b' :: u) = .ok (x, r) →
    r.length ≤ (skip f u).length

variable {g : Groups} {x : Parsed}

theorem ReadersAgree.zero : ReadersAgree 0 where
  alternatives h := by simp [readAlternatives] at h
  sequence h := by simp [readSequence] at h
  closed h := by simp [readClosed] at h
  tail h := by simp [readTail] at h
  brace h := by simp [readTail] at h

namespace ReadersAgree

variable (ih : ReadersAgree n)

include ih

theorem tail_succ {a : Part} (h : readTail (n + 1) f g a t = .ok (x, r)) :
    ReadsParsed (fun d g t x => ∃ m, readTail m f g (a.renumber (· + d)) t = .ok x) g t x r := by
  obtain ⟨_, a', s, b, hn, ha, hb, rfl⟩ := readTail_eq_ok h
  cases hn
  have hrepeats := reads_readRepeats ha (Nat.lt_succ_self _)
  have hsequence := ih.sequence hb
  refine ⟨hsequence.suffix.trans hrepeats.suffix, ?_⟩
  rintro d g' z z' t' x' r' hz hahead hlt hg ⟨m, hx⟩
  obtain ⟨m', c, w, e, -, hc, he, rfl⟩ := readTail_eq_ok hx
  have hlt' := Nat.lt_of_lt_of_le hlt hsequence.suffix.length_le
  obtain ⟨rfl, hw⟩ := hrepeats.alike hz hahead hlt' ⟨_, Nat.lt_succ_self _, hc⟩
  obtain ⟨hshift, hr⟩ := hsequence.alike hz hw hlt hg ⟨m', he⟩
  exact ⟨hshift.cons _, hr⟩

theorem brace_succ {a : Part} {u : List Char}
    (h : readTail (n + 1) f g a ('\x7b' :: u) = .ok (x, r)) : r.length ≤ (skip f u).length := by
  obtain ⟨_, a', s, b, hn, ha, hb, rfl⟩ := readTail_eq_ok h
  cases hn
  exact Nat.le_trans (ih.sequence hb).suffix.length_le
    (length_le_of_brace ha (Nat.lt_succ_self _))

theorem closed_succ {a : Part} (h : readClosed (n + 1) f g a t = .ok (x, r)) :
    ReadsParsed (fun d g t x => ∃ m, readClosed m f g (a.renumber (· + d)) t = .ok x) g t x r := by
  obtain ⟨_, u, hn, rfl, htail⟩ := readClosed_eq_ok h
  cases hn
  have hread := ih.tail htail
  refine ⟨hread.suffix.trans (List.suffix_cons _ u), ?_⟩
  rintro d g' z z' t' x' r' hz hahead hlt hg ⟨m, hx⟩
  obtain ⟨m', u', -, rfl, htail'⟩ := readClosed_eq_ok hx
  obtain ⟨u'', heq, hu⟩ := hahead.uncons (Nat.lt_of_lt_of_le hlt hread.suffix.length_le)
  cases heq
  exact hread.alike hz hu hlt hg ⟨m', htail'⟩

theorem alternatives_succ (h : readAlternatives (n + 1) f g t = .ok (x, r)) :
    ReadsParsed (fun _ g t x => ∃ m, readAlternatives m f g t = .ok x) g t x r := by
  obtain ⟨_, a, s, hn, ha, hrest⟩ := readAlternatives_eq_ok h
  cases hn
  have hread := ih.sequence ha
  obtain ⟨hbar, rfl, rfl⟩ | ⟨u, b, rfl, hb, rfl⟩ := hrest
  · refine ⟨hread.suffix, ?_⟩
    rintro d g' z z' t' x' r' hz hahead hlt hg ⟨m, hx⟩
    obtain ⟨m', a', s', -, ha', hrest'⟩ := readAlternatives_eq_ok hx
    obtain ⟨hshift, hs⟩ := hread.alike hz hahead hlt hg ⟨m', ha'⟩
    obtain ⟨-, rfl, rfl⟩ | ⟨u', b', rfl, -, -⟩ := hrest'
    · exact ⟨hshift.alone, hs⟩
    · exact absurd ((hs.head?_eq_some_iff hz (by decide)).1 rfl) hbar
  · have hsecond := ih.alternatives hb
    refine ⟨(hsecond.suffix.trans (List.suffix_cons _ u)).trans hread.suffix, ?_⟩
    rintro d g' z z' t' x' r' hz hahead hlt hg ⟨m, hx⟩
    have hlt' := Nat.lt_of_lt_of_le hlt hsecond.suffix.length_le
    obtain ⟨m', a', s', -, ha', hrest'⟩ := readAlternatives_eq_ok hx
    obtain ⟨hshift, hs⟩ := hread.alike hz hahead (Nat.lt_succ_of_lt hlt') hg ⟨m', ha'⟩
    obtain ⟨hbar, -, -⟩ | ⟨u', b', rfl, hb', rfl⟩ := hrest'
    · exact absurd ((hs.head?_eq_some_iff hz (by decide)).2 rfl) hbar
    · obtain ⟨u'', heq, hu⟩ := hs.uncons hlt'
      cases heq
      rw [hshift.flags] at hb'
      obtain ⟨hshift', hr⟩ := hsecond.alike hz hu hlt hshift.next ⟨m', hb'⟩
      exact ⟨hshift.or hshift', hr⟩

/-- A group behind its opening parenthesis. -/
theorem opened {o : Opening} {s : List Char} (h : ReadsOpened n f g o s x r) :
    ReadsParsed (fun d g t x => ∃ m, ReadsOpened m f g (o.shift d) t x.1 x.2) g s x r := by
  cases o with
  | flags f' =>
      obtain ⟨b, hb, rfl⟩ := h
      have hread := ih.sequence hb
      refine ⟨hread.suffix, ?_⟩
      rintro d g' z z' t' x' r' hz hahead hlt hg ⟨m, b', hb', rfl⟩
      obtain ⟨hshift, hr⟩ := hread.alike hz hahead hlt hg ⟨m, hb'⟩
      exact ⟨hshift.behindFlags, hr⟩
  | plain f' =>
      obtain ⟨a, w, ha, hclosed⟩ := h
      have hread := ih.alternatives ha
      have hrest := ih.closed hclosed
      refine ⟨hrest.suffix.trans hread.suffix, ?_⟩
      rintro d g' z z' t' x' r' hz hahead hlt hg ⟨m, a', w', ha', hclosed'⟩
      obtain ⟨hshift, hw⟩ :=
        hread.alike hz hahead (Nat.lt_of_lt_of_le hlt hrest.suffix.length_le) hg ⟨m, ha'⟩
      rw [hshift.enclosed_eq] at hclosed'
      exact hrest.alike hz hw hlt hshift.next ⟨m, hclosed'⟩
  | group i =>
      obtain ⟨a, w, ha, hclosed⟩ := h
      have hread := ih.alternatives ha
      have hrest := ih.closed hclosed
      refine ⟨hrest.suffix.trans hread.suffix, ?_⟩
      rintro d g' z z' t' x' r' hz hahead hlt hg ⟨m, a', w', ha', hclosed'⟩
      obtain ⟨hshift, hw⟩ :=
        hread.alike hz hahead (Nat.lt_of_lt_of_le hlt hrest.suffix.length_le) hg ⟨m, ha'⟩
      rw [hshift.captured_eq] at hclosed'
      exact hrest.alike hz hw hlt hshift.next ⟨m, hclosed'⟩

theorem sequence_succ (h : readSequence (n + 1) f g t = .ok (x, r)) :
    ReadsParsed (fun _ g t x => ∃ m, readSequence m f g t = .ok x) g t x r := by
  obtain ⟨_, hn, hcases⟩ := readSequence_eq_ok h
  cases hn
  obtain ⟨hends, rfl, rfl⟩ | ⟨u, b, s, o, g₁, hskip, hb, ho, hopened⟩ |
    ⟨c, u, a, s, hskip, hc, ha, htail⟩ := hcases
  · refine ⟨skip_suffix f t, ?_⟩
    rintro d g' z z' t' x' r' hz hahead hlt hg ⟨m, hx⟩
    have hskip := hahead.skip hz hlt
    obtain ⟨m', -, hcases'⟩ := readSequence_eq_ok hx
    obtain ⟨-, rfl, rfl⟩ | ⟨u', b', s', o', g₁', hopen', -⟩ | ⟨c', u', a', s', hunit', hc', -⟩ :=
      hcases'
    · exact ⟨⟨rfl, rfl, rfl, hg⟩, hskip⟩
    · rw [hopen'] at hskip
      exact absurd (hskip.endsSequence hz hends) (by simp [EndsSequence])
    · rw [hunit'] at hskip
      exact absurd (hskip.endsSequence hz hends) (not_endsSequence_of_beginsUnit hc')
  · have hbeginning := reads_readBeginning hb
    have hinside := ih.opened hopened
    have hu : u <:+ t := (List.suffix_cons _ u).trans (hskip ▸ skip_suffix f t)
    have hs := (hbeginning.suffix.trans (skip_suffix f u)).trans hu
    refine ⟨hinside.suffix.trans hs, ?_⟩
    rintro d g' z z' t' x' r' hz hahead hlt hg ⟨m, hx⟩
    have hltInside := Nat.lt_of_lt_of_le hlt hinside.suffix.length_le
    have hltBeginning := Nat.lt_of_lt_of_le hltInside hbeginning.suffix.length_le
    have hltOpen := Nat.lt_of_lt_of_le hltBeginning (skip_suffix f u).length_le
    have hahead' := hahead.skip (f := f) hz (by rw [hskip]; exact Nat.lt_succ_of_lt hltOpen)
    rw [hskip] at hahead'
    obtain ⟨v, hv, hahead'⟩ := hahead'.uncons hltOpen
    obtain ⟨m', -, hcases'⟩ := readSequence_eq_ok hx
    rw [hv] at hcases'
    obtain ⟨hends', -, -⟩ | ⟨u', b', s', o', g₁', hopen', hb', ho', hopened'⟩ |
      ⟨c', u', a', s', hunit', hc', -⟩ := hcases'
    · exact absurd hends' (by simp [EndsSequence])
    · cases hopen'
      obtain ⟨rfl, hs'⟩ := hbeginning.alike hz (hahead'.skip hz hltBeginning) hltInside hb'
      obtain ⟨rfl, hg₁⟩ := Beginning.open_shift ho ho' hg
      exact hinside.alike hz hs' hlt hg₁ ⟨m', hopened'⟩
    · cases hunit'
      exact absurd hc' (by decide)
  · have hunit := reads_readUnit ha
    have hrest := ih.tail htail
    refine ⟨(hrest.suffix.trans hunit.suffix).trans (hskip ▸ skip_suffix f t), ?_⟩
    rintro d g' z z' t' x' r' hz hahead hlt hg ⟨m, hx⟩
    have hltUnit := Nat.lt_of_lt_of_le hlt hrest.suffix.length_le
    have hahead' := hahead.skip (f := f) hz
      (Nat.lt_of_lt_of_le hltUnit (hskip ▸ hunit.suffix.length_le))
    have hmark : ∀ v, s = '\x7b' :: v → z.length < (skip f v).length := by
      rintro v rfl
      exact Nat.lt_of_lt_of_le hlt (ih.brace htail)
    rw [hskip] at hahead'
    have hclose : c ≠ ')' := by
      rintro rfl
      exact absurd hc (by decide)
    obtain ⟨v, hv, -⟩ := hahead'.cons_left hclose
    obtain ⟨m', -, hcases'⟩ := readSequence_eq_ok hx
    obtain ⟨hends', -, -⟩ | ⟨u', b', s', o', g₁', hopen', -⟩ |
      ⟨c', u', a', s', hunit', -, ha', htail'⟩ := hcases'
    · rw [hv] at hends'
      exact absurd hends' (not_endsSequence_of_beginsUnit hc)
    · rw [hv] at hopen'
      cases hopen'
      exact absurd hc (by decide)
    · rw [hunit'] at hahead'
      obtain ⟨rfl, hs⟩ := hunit.alike hz hahead' hltUnit hmark ha'
      rw [← Part.renumber_unit (groupIndices_readUnit ha) (· + d)] at htail'
      exact hrest.alike hz hs hlt hg ⟨m', htail'⟩

end ReadersAgree

/-- The readers look no further than they read. -/
theorem readersAgree (n : Nat) : ReadersAgree n := by
  induction n with
  | zero => exact .zero
  | succ n ih =>
      exact ⟨ih.alternatives_succ, ih.sequence_succ, ih.closed_succ, ih.tail_succ, ih.brace_succ⟩

/-! ### Sources in parentheses -/

/-- An expression that can be read by itself does not begin like the inside of a special group. -/
theorem head?_ne_question (h : readAlternatives n {} g t = .ok (x, r)) : t.head? ≠ some '?' := by
  obtain ⟨m, a, s, -, ha, -⟩ := readAlternatives_eq_ok h
  intro hhead
  obtain ⟨u, rfl⟩ := List.head?_eq_some_iff.1 hhead
  cases m with
  | zero => simp [readSequence] at ha
  | succ m =>
      rw [readSequence, skip_plain] at ha
      simp at ha

/-- A suffix that begins with a parenthesis is not a dollar sign alone. -/
theorem one_lt_length_of_suffix {src u : List Char} (h : ')' :: u <:+ src ++ [')', '$']) :
    1 < (')' :: u).length := by
  cases u with
  | nil =>
      obtain ⟨v, hv⟩ := h
      have hlast := congrArg List.getLast? hv
      simp at hlast
  | cons c u => simp

/-- A group without a number up to its closing parenthesis. -/
theorem readSequence_plain_group {g : Groups}
    (h : readSequence n {} g ('(' :: '?' :: ':' :: t) = .ok (x, r)) :
    ∃ m m' a u, readAlternatives m {} g t = .ok (a, ')' :: u) ∧
      readTail m' {} a.groups a.enclosed u = .ok (x, r) := by
  obtain ⟨m, -, ⟨hends, -⟩ | ⟨v, b, s, o, g₁, hskip, hb, ho, hopened⟩ | ⟨c, v, a, s, hskip, hc, -⟩⟩ :=
    readSequence_eq_ok h
  · exact absurd hends (by simp [EndsSequence, skip_plain])
  · cases hskip
    cases hb
    cases ho
    obtain ⟨a, w, ha, hclosed⟩ := hopened
    obtain ⟨m', u, -, rfl, htail⟩ := readClosed_eq_ok hclosed
    exact ⟨m, m', a, u, ha, htail⟩
  · cases hskip
    exact absurd hc (by decide)

/-- A source between anchors is read up to a closing parenthesis, and what stands behind that
follows in the sequence that the first anchor begins. -/
theorem readAlternatives_of_anchored {src : List Char} {w : Regex}
    (hw : parseChars (anchored src) = .ok w) :
    ∃ m m' q u b s, readAlternatives m {} {} (src ++ [')', '$']) = .ok (q, ')' :: u) ∧
      readTail m' {} q.groups q.enclosed u = .ok (b, s) ∧
      (s = [] → w = .concat (.look .textStart) b.regex ∧ b.row.deepest ≤ nestLimit) := by
  obtain ⟨y, hy, rfl, hdepth⟩ := readAlternatives_of_parseChars hw
  obtain ⟨m, a, s, hm, ha, hbar⟩ := readAlternatives_eq_ok hy
  have htext : anchored src = '^' :: '(' :: '?' :: ':' :: (src ++ [')', '$']) := by
    have hopen : "^(?:".toList = ['^', '(', '?', ':'] := rfl
    have hclose : ")$".toList = [')', '$'] := rfl
    simp [anchored, hopen, hclose]
  cases m with
  | zero => simp [readSequence] at ha
  | succ m =>
      rw [htext] at ha
      change readTail m {} {} (.unit (.look .textStart))
        ('(' :: '?' :: ':' :: (src ++ [')', '$'])) = .ok (a, s) at ha
      obtain ⟨m', b, hb, rfl⟩ := readTail_settled (settled_cons (by decide) _) ha
      obtain ⟨k, k', q, u, hq, htail⟩ := readSequence_plain_group hb
      refine ⟨k, k', q, u, b, s, hq, htail, ?_⟩
      rintro rfl
      obtain ⟨-, rfl, -⟩ | ⟨v, e, hv, -⟩ := hbar
      · exact ⟨rfl, Nat.le_trans (b.row.deepest_le_depth_cons 0) hdepth⟩
      · cases hv

/-- Between anchors a source is read as it is by itself. -/
theorem parseChars_anchored {src : List Char} {p : Parsed} {w : Regex}
    (hp : readAlternatives n {} {} src = .ok (p, []))
    (hw : parseChars (anchored src) = .ok w) :
    w = whole p.regex ∧ p.row.depth ≤ nestLimit ∧
      ∃ m q, readAlternatives m {} {} (src ++ [')', '$']) = .ok (q, [')', '$']) ∧
        q.Shifted 0 p := by
  obtain ⟨k, k', q, u, b, s, hq, htail, hb⟩ := readAlternatives_of_anchored hw
  -- Up to its parenthesis the inside is read as the source is alone, so it ends there.
  have hagree := (readersAgree k).alternatives hq
  have hahead : Ahead ['$'] [] (src ++ [')', '$']) (src ++ []) := Ahead.append src
  rw [List.append_nil] at hahead
  obtain ⟨hshift, hu⟩ := hagree.alike (d := 0) (.inl rfl) hahead
    (one_lt_length_of_suffix hagree.suffix) rfl ⟨n, hp⟩
  cases hu
  obtain ⟨m', c, hc, rfl⟩ := readTail_settled (settled_cons (by decide) []) htail
  obtain ⟨hregex, rfl⟩ := readSequence_dollar hc
  obtain ⟨hwhole, hdepth⟩ := hb rfl
  refine ⟨?_, ?_, k, q, hq, hshift⟩
  · have hid : q.regex.renumber (· + 0) = q.regex := renumber_id q.regex
    rw [hwhole, whole, hshift.regex, hid, ← hregex]
    rfl
  · rw [hshift.row]
    calc q.row.depth ≤ q.enclosed.depth := Nat.le_succ _
      _ ≤ (c.cons q.enclosed).row.deepest := Nat.le_max_left _ _
      _ ≤ nestLimit := hdepth

/-- A source that is an expression by itself and between anchors is the same expression in
parentheses, with its groups numbered from there. -/
theorem readAlternatives_enclosed {src rest : List Char} {p : Parsed} {w : Regex} {m d : Nat}
    {g : Groups} (hp : readAlternatives n {} {} src = .ok (p, []))
    (hw : parseChars (anchored src) = .ok w) (hg : g.next = d + 1)
    (h : readAlternatives m {} g (src ++ ')' :: rest) = .ok (x, r)) :
    p.Shifted d x ∧ r = ')' :: rest := by
  obtain ⟨-, -, k, q, hq, hshift⟩ := parseChars_anchored hp hw
  have hahead : Ahead ['$'] (')' :: rest) (src ++ [')', '$']) (src ++ ')' :: rest) :=
    Ahead.append src
  obtain ⟨hx, hr⟩ := ((readersAgree k).alternatives hq).alike (.inr ⟨rest, rfl⟩) hahead
    (by simp) (hg.trans (Nat.add_comm d 1)) ⟨m, h⟩
  have hid : q.regex.renumber (· + 0) = q.regex := renumber_id q.regex
  have hregex : p.regex = q.regex := hshift.regex.trans hid
  refine ⟨⟨?_, ?_, ?_, ?_⟩, ?_⟩
  · rw [hx.regex, hregex]
  · rw [hx.row, hshift.row]
  · rw [hx.flags, hshift.flags]
  · rw [hx.next, hshift.next, Nat.add_zero]
  · cases hr with
    | here => rfl
    | cons c hr =>
        cases hr with
        | cons c hr => cases hr

end RouteEngine.Regex
