import RouteEngine.Proofs.Regex.Enclosed
import RouteEngine.Proofs.Regex.Persists

/-!
What is read in parentheses is read by itself. The readers of units persist, and so do the four
readers that make up a parser, with fuel for the characters that there are (`ReadersPersist`). So a
source that can be read between the anchors for whole values can be read alone up to the place
where it was left: it is an expression by itself, or a closing parenthesis in it has no opening one
(`parse_of_parseWhole`).
-/

namespace RouteEngine.Regex

open Outcome

variable {z z' t t' r r' s : List Char} {f : Flags} {n : Nat}

/-! ### Openings -/

theorem persists_readFlags {seen : List Char} {on : Bool} {v : Flags × Char × Bool}
    (h : readFlags f seen on t = .ok (v, r)) : Persists (Gives (readFlags f seen on)) t r := by
  induction t generalizing f seen on with
  | nil => simp [readFlags] at h
  | cons c t ih =>
      rw [readFlags] at h
      split at h
      · next hend =>
          split at h
          · simp at h
          · next hminus =>
              cases h
              refine Persists.cons (K := fun t' x => x = ((f, c, seen.isEmpty), t'))
                (.of_forall fun t' => ⟨_, rfl⟩) List.suffix_rfl fun t' x hx => ?_
              rw [Gives, readFlags, if_pos hend, if_neg hminus, hx]
      · next hend =>
          split at h
          · simp at h
          · next hseen =>
              split at h
              · next hminus =>
                  refine (ih h).cons (reads_readFlags h).suffix fun t' x hx => ?_
                  rwa [Gives, readFlags, if_neg hend, if_neg hseen, if_pos hminus]
              · next hminus =>
                  split at h
                  · next f' hset =>
                      refine (ih h).cons (reads_readFlags h).suffix fun t' x hx => ?_
                      rw [Gives, readFlags, if_neg hend, if_neg hseen, if_neg hminus, hset]
                      exact hx
                  · simp at h

theorem persists_readGroupName {name : String} (h : readGroupName t = .ok (name, r)) :
    Persists (Gives readGroupName) t r := by
  rw [readGroupName] at h
  split at h
  · simp at h
  · next cs s hsplit =>
      obtain ⟨rfl, hcs⟩ := Text.splitFirst_eq_some.1 hsplit
      split at h
      · simp at h
      · next c cs =>
          split at h
          · next hname =>
              cases h
              intro z z' t' hz ha hlt
              obtain ⟨u, rfl, hu⟩ := ha.append_of_length_lt (c :: cs) (by simp; omega)
              obtain ⟨r', rfl, -⟩ := hu.uncons hlt
              refine ⟨(String.ofList (c :: cs), r'), ?_⟩
              rw [Gives, readGroupName, Text.splitFirst_eq_some.2 ⟨rfl, hcs⟩]
              simp only [if_pos hname]
          · simp at h

theorem persists_readBeginning {b : Beginning} (h : readBeginning f t = .ok (b, r)) :
    Persists (Gives (readBeginning f)) t r := by
  have hnamed : ∀ {u : List Char} (word : List Char),
      (readGroupName u >>= fun x => .ok (Beginning.named x.1, x.2)) = .ok (b, r) →
      (∀ t', readBeginning f (word ++ t') =
        readGroupName t' >>= fun x => .ok (Beginning.named x.1, x.2)) →
      Persists (Gives (readBeginning f)) (word ++ u) r := by
    intro u word h hword
    obtain ⟨⟨name, s⟩, hname, h⟩ := bind_eq_ok.1 h
    cases h
    have hread := reads_readGroupName hname
    refine ((persists_readGroupName hname).andThen hread
      (k := fun name => .ok (Beginning.named name)) rfl).append word hread.suffix fun t' x hx => ?_
    rw [Gives, hword]
    exact hx
  rw [readBeginning.eq_def] at h
  split at h
  · exact hnamed ['?', 'P', '<'] h fun _ => rfl
  · exact hnamed ['?', '<'] h fun _ => rfl
  · next u hp hname =>
      obtain ⟨⟨v, s⟩, hflags, h⟩ := bind_eq_ok.1 h
      obtain ⟨d, hd, h⟩ := bind_eq_ok.1 h
      cases pure_eq_ok.1 h
      have hread := reads_readFlags hflags
      intro z z' t' hz ha hlt
      obtain ⟨u', rfl, hinside⟩ := ha.cons_left (by decide)
      have hp' : ∀ w, u' = 'P' :: '<' :: w → False := by
        rintro w rfl
        obtain ⟨v, rfl, -⟩ := hinside.append_right ['P', '<'] hz (by decide)
        exact hp v rfl
      have hname' : ∀ w, u' = '<' :: w → False := by
        rintro w rfl
        obtain ⟨v, rfl, -⟩ := hinside.append_right ['<'] hz (by decide)
        exact hname v rfl
      obtain ⟨x, hx⟩ := ((persists_readFlags hflags).andThen hread hd) hz hinside hlt
      refine ⟨x, ?_⟩
      rw [Gives, readBeginning.eq_3 f u' hp' hname']
      exact hx
  · next hp hname hmark =>
      intro z z' t' hz ha hlt
      have hmark' : ∀ u, t' = '?' :: u → False := by
        rintro u rfl
        obtain ⟨v, rfl, -⟩ := ha.cons_right hz (by decide)
        exact hmark v rfl
      exact ⟨_, readBeginning.eq_4 f t' (fun u => hmark' _) (fun u => hmark' _) hmark'⟩

theorem readGroupName_ne_ok {c : Char} {u : List Char} {x : String × List Char} (hc : c ≠ '>')
    (hname : isGroupNameChar true c = false) : readGroupName (c :: u) ≠ .ok x := by
  intro h
  rw [readGroupName] at h
  split at h
  · cases h
  · next name v hsplit =>
      obtain ⟨heq, -⟩ := Text.splitFirst_eq_some.1 hsplit
      cases name with
      | nil => exact hc (List.cons.inj heq).1
      | cons d name =>
          obtain ⟨rfl, -⟩ := List.cons.inj heq
          simp [hname] at h

/-- What can be read behind an opening parenthesis does not look around. -/
theorem startsLookAround_of_readBeginning {b : Beginning} (h : readBeginning f t = .ok (b, r)) :
    startsLookAround t = false := by
  unfold startsLookAround
  split
  · cases h
  · cases h
  · obtain ⟨_, hname, -⟩ := bind_eq_ok.1 h
    exact absurd hname (readGroupName_ne_ok (by decide) (by decide +kernel))
  · obtain ⟨_, hname, -⟩ := bind_eq_ok.1 h
    exact absurd hname (readGroupName_ne_ok (by decide) (by decide +kernel))
  · rfl

/-! ### Counts and repetitions -/

theorem persists_readCount {v : Option Nat} (h : readCount f t = some (v, r)) :
    Persists (fun t x => readCount f t = some x) t r := by
  obtain ⟨ds, s, hdigits⟩ : ∃ ds s,
      readCount.digits f (dropWhite t).length [] (dropWhite t) = (ds, s) := ⟨_, _, rfl⟩
  rw [readCount_eq, hdigits] at h
  obtain ⟨w, hw, heq⟩ := Option.map_eq_some_iff.1 h
  cases heq
  have hread := reads_digits hdigits (Nat.le_refl _)
  have hrest : (dropWhite s).length ≤ s.length := (List.dropWhile_suffix _).length_le
  intro z z' t' hz ha hlt
  have hlt' := Nat.lt_of_lt_of_le hlt hrest
  have hahead := ha.dropWhite hz (Nat.lt_of_lt_of_le hlt' hread.suffix.length_le)
  obtain ⟨ds', s', hdigits'⟩ : ∃ ds s,
      readCount.digits f (dropWhite t').length [] (dropWhite t') = (ds, s) := ⟨_, _, rfl⟩
  obtain ⟨rfl, -⟩ := hread.alike hz hahead hlt' ⟨_, Nat.le_refl _, hdigits'⟩
  refine ⟨(v, dropWhite s'), ?_⟩
  change readCount f t' = _
  rw [readCount_eq, hdigits', hw]
  rfl

theorem persists_countsMost {least : Nat} {v : Nat × Option Nat}
    (h : countsMost f least t = .ok (v, r)) : Persists (Gives (countsMost f least)) t r := by
  rw [countsMost.eq_def] at h
  split at h
  · cases h
    exact Persists.cons (K := fun t' x => x = ((least, none), skip f t'))
      (.of_forall fun t' => ⟨_, rfl⟩) (skip_suffix f _) fun t' x hx => hx ▸ rfl
  · next hbrace =>
      split at h
      · next most s hcount =>
          split at h
          · next hle =>
              cases h
              have hsuffix := (skip_suffix f s).trans (List.suffix_cons '\x7d' s)
              intro z z' t' hz ha hlt
              obtain ⟨w, hcount', hw⟩ := (persists_readCount hcount).exists_rest
                (reads_readCount hcount) (fun _ _ => id) hz ha
                (Nat.lt_of_lt_of_le hlt hsuffix.length_le)
              obtain ⟨s', rfl, -⟩ := hw.cons_left (by decide)
              have hbrace' : ∀ u, t' = '\x7d' :: u → False := by
                rintro u rfl
                obtain ⟨w, rfl, -⟩ := ha.cons_right hz (by decide)
                exact hbrace w rfl
              refine ⟨((least, some most), skip f s'), ?_⟩
              rw [Gives, countsMost.eq_2 f least t' hbrace', hcount']
              simp only [if_pos hle]
          · simp at h
      · simp at h

theorem persists_countsRest {least : Nat} {v : Nat × Option Nat}
    (h : countsRest f least t = .ok (v, r)) : Persists (Gives (countsRest f least)) t r := by
  rw [countsRest.eq_def] at h
  split at h
  · cases h
    exact Persists.cons (K := fun t' x => x = ((least, some least), skip f t'))
      (.of_forall fun t' => ⟨_, rfl⟩) (skip_suffix f _) fun t' x hx => hx ▸ rfl
  · next u =>
      have hr := (reads_countsMost h).suffix
      have hskip : Persists (fun t x => countsMost f least (skip f t) = .ok x) u r :=
        (persists_countsMost h).skip hr fun _ _ => id
      exact hskip.cons (hr.trans (skip_suffix f u)) fun t' x => id
  · simp at h

theorem persists_readCounts {v : Nat × Option Nat} (h : readCounts f t = .ok (v, r)) :
    Persists (Gives (readCounts f)) t r := by
  rw [readCounts_eq] at h
  split at h
  · next least s hcount =>
      have hr := (reads_countsRest h).suffix
      have hread := reads_readCount hcount
      have hboth : Persists (fun t x => ∃ s, readCount f t = some (some least, s) ∧
          countsRest f least s = .ok x) (skip f t) r :=
        (persists_readCount hcount).bind hread (fun _ _ => id) (persists_countsRest h) hr
          fun t' s' x hs hx => ⟨s', hs, hx⟩
      refine hboth.skip (hr.trans hread.suffix) fun t' x ⟨s', hs', hx⟩ => ?_
      rw [Gives, readCounts_eq, hs']
      exact hx
  · simp at h

/-- Counts do not begin with a parenthesis. -/
theorem head?_ne_of_readCounts {v : Nat × Option Nat} (h : readCounts f t = .ok (v, r)) :
    (skip f t).head? ≠ some ')' := by
  intro hhead
  obtain ⟨u, hu⟩ := List.head?_eq_some_iff.1 hhead
  rw [readCounts_eq, hu, readCount_eq] at h
  cases h

theorem persists_readMark {v : Nat × Option Nat} (hm : readMark f t = some (.ok (v, r))) :
    Persists (fun t x => readMark f t = some (.ok x)) t r := by
  have hsimple : ∀ (c : Char), (∀ t', readMark f (c :: t') = some (.ok (v, t'))) →
      Persists (fun t x => readMark f t = some (.ok x)) (c :: r) r := fun c hc =>
    Persists.cons (K := fun t' x => x = (v, t')) (.of_forall fun t' => ⟨_, rfl⟩) List.suffix_rfl
      fun t' x hx => hx ▸ hc t'
  rw [readMark.eq_def] at hm
  split at hm
  any_goals
    cases hm
    exact hsimple _ fun _ => rfl
  · have hcounts := Option.some.inj hm
    exact (persists_readCounts hcounts).cons (reads_readCounts hcounts).suffix fun t' x hx =>
      congrArg some hx
  · simp at hm

/-- Behind a mark the expression was not too heavy to be repeated. -/
theorem readRepeats_mark {a b : Part} {v : Nat × Option Nat}
    (hm : readMark f (skip f t) = some (.ok (v, s))) :
    readRepeats f (n + 1) a t = .ok (b, r) ↔
      ¬ weightLimit < v.2.getD v.1 * a.regex.weight ∧
        readRepeats f n (a.repeated ((lazyMark s).1 == f.swapGreed) v.1 v.2) (lazyMark s).2 =
          .ok (b, r) := by
  rw [readRepeats_succ, hm]
  change repeatOnce f n a v s = .ok (b, r) ↔ _
  rw [repeatOnce]
  split
  · next hheavy => simp [hheavy]
  · next hheavy => simp [hheavy]

theorem persists_readRepeats {a b : Part} (h : readRepeats f n a t = .ok (b, r))
    (hn : t.length < n) :
    Persists (fun t x => ∀ m, t.length < m → readRepeats f m a t = .ok x) t r := by
  induction n generalizing a t with
  | zero => simp at hn
  | succ n ih =>
      have hskip := (skip_suffix f t).length_le
      intro z z' t' hz ha hlt
      obtain ⟨hmark, rfl, rfl⟩ | ⟨v, s, lazy, s', hmark, hlazy, hrest⟩ := readRepeats_eq_ok h
      · have hahead := ha.skip hz hlt
        refine ⟨(b, skip f t'), fun m hm => ?_⟩
        cases m with
        | zero => cases hm
        | succ m => rw [readRepeats_succ, (hahead.readMark_eq_none_iff hz).2 hmark]
      · have hshort := length_lt_of_readMark hmark
        have hlazyRead := reads_lazyMark hlazy
        have hle := hlazyRead.suffix.length_le
        have hread := reads_readRepeats hrest (by omega)
        have hltLazy := Nat.lt_of_lt_of_le hlt hread.suffix.length_le
        have hltMark := Nat.lt_of_lt_of_le hltLazy hle
        have hahead := ha.skip hz (Nat.lt_trans hltMark hshort)
        obtain ⟨w, hmark', hw⟩ := (persists_readMark hmark).exists_rest (reads_readMark hmark)
          (fun _ _ => id) hz hahead hltMark
        obtain ⟨w', hlazy', hw'⟩ := Persists.exists_rest (S := fun t x => lazyMark t = x)
          (.of_forall fun t' => ⟨_, rfl⟩) hlazyRead (fun _ _ => id) hz hw hltLazy
        obtain ⟨hheavy, -⟩ := (readRepeats_mark hmark).1 h
        obtain ⟨x, hx⟩ := ih hrest (by omega) hz hw' hlt
        refine ⟨x, fun m hm => ?_⟩
        have hshort' := length_lt_of_readMark hmark'
        have hskip' := (skip_suffix f t').length_le
        have hle' := (reads_lazyMark hlazy').suffix.length_le
        cases m with
        | zero => cases hm
        | succ m =>
            refine (readRepeats_mark hmark').2 ⟨hheavy, ?_⟩
            rw [hlazy']
            exact hx m (by omega)

/-- Behind a brace that is left for the repetitions there is no parenthesis. -/
theorem head?_ne_of_brace {a b : Part} {u : List Char}
    (h : readRepeats f (n + 1) a ('\x7b' :: u) = .ok (b, r)) : (skip f u).head? ≠ some ')' := by
  have hbrace : skip f ('\x7b' :: u) = '\x7b' :: u := skip_cons (by decide) (by decide)
  obtain ⟨hmark, -, -⟩ | ⟨v, s, -, -, hmark, -, -⟩ := readRepeats_eq_ok h
  · rw [hbrace] at hmark
    cases hmark
  · rw [hbrace] at hmark
    exact head?_ne_of_readCounts (Option.some.inj hmark)

/-! ### Units -/

theorem persists_escape {i : Item} (h : readEscape f t = .ok (i, r)) :
    PersistsPast f (Gives (readEscape f)) t r := by
  by_cases hb : t.head? = some 'b'
  · obtain ⟨u, rfl⟩ := List.head?_eq_some_iff.1 hb
    have hboundary : readBoundary f u = .ok (i, r) := h
    intro z z' t' hz ha hlt hbrace
    obtain ⟨u', rfl, hinside⟩ := ha.cons_left (by decide)
    exact persists_readBoundary hboundary hz hinside hlt hbrace
  · exact (persists_readEscape h hb).past

theorem persists_readUnit {a : Regex} (h : readUnit f t = .ok (a, r)) :
    PersistsPast f (Gives (readUnit f)) t r := by
  have hsingle : ∀ {c : Char} {u : List Char}, (∀ t', readUnit f (c :: t') = .ok (a, t')) →
      PersistsPast f (Gives (readUnit f)) (c :: u) u := fun hc =>
    (Persists.cons (K := fun t' x => x = (a, t')) (.of_forall fun t' => ⟨_, rfl⟩)
      List.suffix_rfl fun t' x hx => hx ▸ hc t').past
  rw [readUnit.eq_def] at h
  split at h
  · simp at h
  · obtain ⟨⟨c, s⟩, hc, h⟩ := bind_eq_ok.1 h
    cases pure_eq_ok.1 h
    have hread := reads_readClass hc
    exact (((persists_readClass hc).andThen hread (k := fun c => .ok (Regex.chars c)) rfl).cons
      hread.suffix fun t' x => id).past
  · obtain ⟨b, hb, h⟩ := bind_eq_ok.1 h
    cases pure_eq_ok.1 h
    refine hsingle fun t' => ?_
    rw [readUnit, hb]
    rfl
  · cases h
    exact hsingle fun _ => rfl
  · cases h
    exact hsingle fun _ => rfl
  · obtain ⟨⟨i, s⟩, hi, h⟩ := bind_eq_ok.1 h
    obtain ⟨b, hb, h⟩ := bind_eq_ok.1 h
    cases pure_eq_ok.1 h
    intro z z' t' hz ha hlt hbrace
    obtain ⟨u, rfl, hinside⟩ := ha.cons_left (by decide)
    obtain ⟨⟨j, s'⟩, hj⟩ := persists_escape hi hz hinside hlt hbrace
    obtain ⟨rfl, -⟩ := (reads_escape hi).alike hz hinside hlt (fun u hu => (hbrace u hu).1) hj
    exact ⟨(a, s'), bind_eq_ok.2 ⟨_, hj, bind_eq_ok.2 ⟨a, hb, rfl⟩⟩⟩
  · next c u hclass hdot hcaret hdollar hescape =>
      obtain ⟨b, hb, h⟩ := bind_eq_ok.1 h
      cases pure_eq_ok.1 h
      refine hsingle fun t' => ?_
      rw [readUnit.eq_7 f c t' hclass hdot hcaret hdollar hescape, hb]
      rfl

theorem length_lt_of_readUnit {a : Regex} (h : readUnit f t = .ok (a, r)) : r.length < t.length := by
  rw [readUnit.eq_def] at h
  split at h
  · simp at h
  · obtain ⟨⟨c, s⟩, hc, h⟩ := bind_eq_ok.1 h
    cases pure_eq_ok.1 h
    exact Nat.lt_succ_of_le (reads_readClass hc).suffix.length_le
  · obtain ⟨b, -, h⟩ := bind_eq_ok.1 h
    cases pure_eq_ok.1 h
    exact Nat.lt_succ_self _
  · cases h
    exact Nat.lt_succ_self _
  · cases h
    exact Nat.lt_succ_self _
  · obtain ⟨⟨i, s⟩, hi, h⟩ := bind_eq_ok.1 h
    obtain ⟨b, -, h⟩ := bind_eq_ok.1 h
    cases pure_eq_ok.1 h
    exact Nat.lt_succ_of_le (reads_escape hi).suffix.length_le
  · obtain ⟨b, -, h⟩ := bind_eq_ok.1 h
    cases pure_eq_ok.1 h
    exact Nat.lt_succ_self _

/-! ### Putting the readers together -/

section Together

variable {g g₁ : Groups} {x : Parsed}

theorem readSequence_ends (h : EndsSequence (skip f t)) :
    readSequence (n + 1) f g t = .ok (⟨.empty, .empty, f, g⟩, skip f t) := by
  rw [readSequence]
  generalize skip f t = w at h
  cases w with
  | nil => rfl
  | cons c w =>
      rcases h c rfl with rfl | rfl
      · rfl
      · rfl

theorem readAlternatives_last (h : readSequence n f g t = .ok (x, r)) (hr : r.head? ≠ some '|') :
    readAlternatives (n + 1) f g t = .ok (x.alone, r) := by
  rw [readAlternatives]
  refine bind_eq_ok.2 ⟨_, h, ?_⟩
  simp only
  split
  · exact absurd rfl hr
  · rfl

theorem readSequence_opened {u : List Char} {b : Beginning} {o : Opening}
    (hskip : skip f t = '(' :: u) (hb : readBeginning f (skip f u) = .ok (b, s))
    (ho : b.open g = .ok (o, g₁)) (h : ReadsOpened n f g₁ o s x r) :
    readSequence (n + 1) f g t = .ok (x, r) := by
  have hopening : readOpening f g u = .ok ((o, g₁), s) := by
    rw [readOpening_eq, startsLookAround_of_readBeginning hb, hb]
    change (b.open g).map (fun x => (x, s)) = _
    rw [ho]
    rfl
  rw [readSequence, hskip]
  refine bind_eq_ok.2 ⟨_, hopening, ?_⟩
  cases o with
  | flags f' =>
      obtain ⟨b, hb, rfl⟩ := h
      exact bind_eq_ok.2 ⟨_, hb, rfl⟩
  | plain f' =>
      obtain ⟨a, w, ha, hclosed⟩ := h
      exact bind_eq_ok.2 ⟨_, ha, hclosed⟩
  | group i =>
      obtain ⟨a, w, ha, hclosed⟩ := h
      exact bind_eq_ok.2 ⟨_, ha, hclosed⟩

theorem readSequence_unit {c : Char} {u : List Char} {a : Regex} (hskip : skip f t = c :: u)
    (hc : beginsUnit c = true) (ha : readUnit f (c :: u) = .ok (a, s))
    (h : readTail n f g (.unit a) s = .ok (x, r)) : readSequence (n + 1) f g t = .ok (x, r) := by
  rw [readSequence, hskip]
  rw [readUnit.eq_def] at ha
  split at ha
  · simp at ha
  · next v heq =>
      cases heq
      obtain ⟨⟨d, v⟩, hd, ha⟩ := bind_eq_ok.1 ha
      cases pure_eq_ok.1 ha
      exact bind_eq_ok.2 ⟨_, hd, h⟩
  · next v heq =>
      cases heq
      obtain ⟨b, hb, ha⟩ := bind_eq_ok.1 ha
      cases pure_eq_ok.1 ha
      exact bind_eq_ok.2 ⟨_, hb, h⟩
  · next v heq =>
      cases heq
      cases ha
      exact h
  · next v heq =>
      cases heq
      cases ha
      exact h
  · next v heq =>
      cases heq
      obtain ⟨⟨i, v⟩, hi, ha⟩ := bind_eq_ok.1 ha
      obtain ⟨b, hb, ha⟩ := bind_eq_ok.1 ha
      cases pure_eq_ok.1 ha
      exact bind_eq_ok.2 ⟨_, hi, bind_eq_ok.2 ⟨_, hb, h⟩⟩
  · next d v hclass hdot hcaret hdollar hescape heq =>
      cases heq
      obtain ⟨b, hb, ha⟩ := bind_eq_ok.1 ha
      cases pure_eq_ok.1 ha
      have hother : ∀ e ∈ ['(', ')', '|', '*', '+', '?', '\x7b'], c ≠ e := by
        rintro e he rfl
        simp [beginsUnit, he] at hc
      simp only [List.forall_mem_cons] at hother
      -- The last branch is for this character; all the others are for one that it is not.
      split
      case h_14 =>
        next heq =>
          cases heq
          exact bind_eq_ok.2 ⟨_, hb, h⟩
      all_goals simp_all

/-! ### The four readers -/

/-- Whatever follows a parenthesis in the rest, the reader reads the same up to there; it needs
fuel for the characters that there are. -/
def ReadsOn (F : Nat → List Char → Result (Parsed × List Char)) (k : Nat) (t : List Char)
    (x : Parsed) (r : List Char) : Prop :=
  ∀ ⦃z z' t'⦄, Stop z' → Ahead z z' t t' → z.length < r.length →
    ∃ r', (∀ m, 4 * t'.length + k ≤ m → F m t' = .ok (x, r')) ∧ Ahead z z' r r'

/-- The four readers with so much fuel read on. -/
structure ReadersPersist (n : Nat) : Prop where
  alternatives : ∀ {f g t x r}, readAlternatives n f g t = .ok (x, r) →
    ReadsOn (readAlternatives · f g) 4 t x r
  sequence : ∀ {f g t x r}, readSequence n f g t = .ok (x, r) →
    ReadsOn (readSequence · f g) 3 t x r
  closed : ∀ {f g a t x r}, readClosed n f g a t = .ok (x, r) →
    ReadsOn (readClosed · f g a) 1 t x r
  tail : ∀ {f g a t x r}, readTail n f g a t = .ok (x, r) → ReadsOn (readTail · f g a) 4 t x r

namespace ReadersPersist

theorem zero : ReadersPersist 0 where
  alternatives h := by simp [readAlternatives] at h
  sequence h := by simp [readSequence] at h
  closed h := by simp [readClosed] at h
  tail h := by simp [readTail] at h

variable (ih : ReadersPersist n)

include ih

theorem tail_succ {a : Part} (h : readTail (n + 1) f g a t = .ok (x, r)) :
    ReadsOn (readTail · f g a) 4 t x r := by
  obtain ⟨_, b, s, y, hn, hb, hy, rfl⟩ := readTail_eq_ok h
  cases hn
  intro z z' t' hz ha hlt
  have hrepeats := reads_readRepeats hb (Nat.lt_succ_self _)
  have hlt' := Nat.lt_of_lt_of_le hlt ((readersAgree n).sequence hy).suffix.length_le
  obtain ⟨⟨b', s'⟩, hb'⟩ := persists_readRepeats hb (Nat.lt_succ_self _) hz ha hlt'
  have hagree := hb' _ (Nat.lt_succ_self _)
  rw [← a.renumber_id] at hagree
  obtain ⟨hb, hs⟩ := hrepeats.alike (d := 0) hz ha hlt' ⟨_, Nat.lt_succ_self _, hagree⟩
  rw [show b.renumber (· + 0) = b from b.renumber_id] at hb
  subst hb
  obtain ⟨r', hy', hr⟩ := ih.sequence hy hz hs hlt
  refine ⟨r', fun m hm => ?_, hr⟩
  cases m with
  | zero => omega
  | succ m =>
      have hshort := (reads_readRepeats (hb' _ (Nat.lt_succ_self _))
        (Nat.lt_succ_self _)).suffix.length_le
      exact bind_eq_ok.2 ⟨_, hb' _ (Nat.lt_succ_self _),
        bind_eq_ok.2 ⟨_, hy' m (by omega), rfl⟩⟩

theorem closed_succ {a : Part} (h : readClosed (n + 1) f g a t = .ok (x, r)) :
    ReadsOn (readClosed · f g a) 1 t x r := by
  obtain ⟨_, u, hn, rfl, htail⟩ := readClosed_eq_ok h
  cases hn
  intro z z' t' hz ha hlt
  have hsuffix := ((readersAgree n).tail htail).suffix.length_le
  obtain ⟨u', rfl, hu⟩ := ha.uncons (Nat.lt_of_lt_of_le hlt hsuffix)
  obtain ⟨r', htail', hr⟩ := ih.tail htail hz hu hlt
  refine ⟨r', fun m hm => ?_, hr⟩
  cases m with
  | zero => omega
  | succ m =>
      rw [List.length_cons] at hm
      exact htail' m (by omega)

theorem alternatives_succ (h : readAlternatives (n + 1) f g t = .ok (x, r)) :
    ReadsOn (readAlternatives · f g) 4 t x r := by
  obtain ⟨_, a, s, hn, ha, hrest⟩ := readAlternatives_eq_ok h
  cases hn
  intro z z' t' hz hahead hlt
  obtain ⟨hbar, rfl, rfl⟩ | ⟨u, b, rfl, hb, rfl⟩ := hrest
  · obtain ⟨r', ha', hr⟩ := ih.sequence ha hz hahead hlt
    refine ⟨r', fun m hm => ?_, hr⟩
    cases m with
    | zero => omega
    | succ m =>
        refine readAlternatives_last (ha' m (by omega)) fun hbar' => hbar ?_
        exact (hr.head?_eq_some_iff hz (by decide)).1 hbar'
  · have hlt' := Nat.lt_of_lt_of_le hlt ((readersAgree n).alternatives hb).suffix.length_le
    obtain ⟨s', ha', hs⟩ := ih.sequence ha hz hahead (Nat.lt_succ_of_lt hlt')
    obtain ⟨u', rfl, hu⟩ := hs.uncons hlt'
    obtain ⟨r', hb', hr⟩ := ih.alternatives hb hz hu hlt
    refine ⟨r', fun m hm => ?_, hr⟩
    cases m with
    | zero => omega
    | succ m =>
        have hshort := ((readersAgree m).sequence (ha' m (by omega))).suffix.length_le
        rw [List.length_cons] at hshort
        exact bind_eq_ok.2 ⟨_, ha' m (by omega), bind_eq_ok.2 ⟨_, hb' m (by omega), rfl⟩⟩

/-- A group behind its opening parenthesis. -/
theorem opened {o : Opening} (h : ReadsOpened n f g o s x r) :
    ∀ ⦃z z' s'⦄, Stop z' → Ahead z z' s s' → z.length < r.length →
      ∃ r', (∀ m, 4 * s'.length + 4 ≤ m → ReadsOpened m f g o s' x r') ∧ Ahead z z' r r' := by
  -- What stands in the group, then its closing parenthesis and what follows.
  have hinside : ∀ {f' : Flags} {a : Parsed} {w : List Char} {b : Part},
      readAlternatives n f' g s = .ok (a, w) → readClosed n f a.groups b w = .ok (x, r) →
      ∀ ⦃z z' s'⦄, Stop z' → Ahead z z' s s' → z.length < r.length →
        ∃ r', (∀ m, 4 * s'.length + 4 ≤ m → ∃ w', readAlternatives m f' g s' = .ok (a, w') ∧
          readClosed m f a.groups b w' = .ok (x, r')) ∧ Ahead z z' r r' := by
    intro f' a w b ha hclosed z z' s' hz hahead hlt
    have hlt' := Nat.lt_of_lt_of_le hlt ((readersAgree n).closed hclosed).suffix.length_le
    obtain ⟨w', ha', hw⟩ := ih.alternatives ha hz hahead hlt'
    obtain ⟨r', hclosed', hr⟩ := ih.closed hclosed hz hw hlt
    refine ⟨r', fun m hm => ⟨w', ha' m hm, hclosed' m ?_⟩, hr⟩
    have hshort := ((readersAgree m).alternatives (ha' m hm)).suffix.length_le
    omega
  intro z z' s' hz hahead hlt
  cases o with
  | flags f' =>
      obtain ⟨b, hb, rfl⟩ := h
      obtain ⟨r', h', hr⟩ := ih.sequence hb hz hahead hlt
      exact ⟨r', fun m hm => ⟨b, h' m (by omega), rfl⟩, hr⟩
  | plain f' =>
      obtain ⟨a, w, ha, hclosed⟩ := h
      obtain ⟨r', h', hr⟩ := hinside ha hclosed hz hahead hlt
      refine ⟨r', fun m hm => ?_, hr⟩
      obtain ⟨w', ha', hclosed'⟩ := h' m hm
      exact ⟨a, w', ha', hclosed'⟩
  | group i =>
      obtain ⟨a, w, ha, hclosed⟩ := h
      obtain ⟨r', h', hr⟩ := hinside ha hclosed hz hahead hlt
      refine ⟨r', fun m hm => ?_, hr⟩
      obtain ⟨w', ha', hclosed'⟩ := h' m hm
      exact ⟨a, w', ha', hclosed'⟩

theorem sequence_succ (h : readSequence (n + 1) f g t = .ok (x, r)) :
    ReadsOn (readSequence · f g) 3 t x r := by
  obtain ⟨_, hn, hcases⟩ := readSequence_eq_ok h
  cases hn
  intro z z' t' hz hahead hlt
  have hskip' := (skip_suffix f t').length_le
  obtain ⟨hends, rfl, rfl⟩ | ⟨u, b, s, o, g₁, hskip, hb, ho, hopened⟩ |
    ⟨c, u, a, s, hskip, hc, ha, htail⟩ := hcases
  · have hskip := hahead.skip hz hlt
    refine ⟨skip f t', fun m hm => ?_, hskip⟩
    cases m with
    | zero => omega
    | succ m => exact readSequence_ends (hskip.endsSequence hz hends)
  · have hread := reads_readBeginning hb
    have hltInside := Nat.lt_of_lt_of_le hlt ((readersAgree n).opened hopened).suffix.length_le
    have hltSkip := Nat.lt_of_lt_of_le hltInside hread.suffix.length_le
    have hltOpen := Nat.lt_of_lt_of_le hltSkip (skip_suffix f u).length_le
    have hahead' := hahead.skip (f := f) hz (by rw [hskip]; exact Nat.lt_succ_of_lt hltOpen)
    rw [hskip] at hahead'
    obtain ⟨u', hu', hinside⟩ := hahead'.uncons hltOpen
    obtain ⟨s', hb', hs⟩ := (persists_readBeginning hb).exists_rest hread (fun _ _ => id) hz
      (hinside.skip hz hltSkip) hltInside
    obtain ⟨r', hopened', hr⟩ := ih.opened hopened hz hs hlt
    refine ⟨r', fun m hm => ?_, hr⟩
    have hshort := ((reads_readBeginning hb').suffix.trans (skip_suffix f u')).length_le
    rw [hu', List.length_cons] at hskip'
    cases m with
    | zero => omega
    | succ m => exact readSequence_opened hu' hb' ho (hopened' m (by omega))
  · have hread := reads_readUnit ha
    have hltUnit := Nat.lt_of_lt_of_le hlt ((readersAgree n).tail htail).suffix.length_le
    have hahead' := hahead.skip (f := f) hz
      (Nat.lt_of_lt_of_le hltUnit (hskip ▸ hread.suffix.length_le))
    rw [hskip] at hahead'
    have hclose : c ≠ ')' := by
      rintro rfl
      exact absurd hc (by decide)
    obtain ⟨u', hu', -⟩ := hahead'.cons_left hclose
    rw [hu'] at hahead'
    have hbrace : ∀ v, s = '\x7b' :: v → z.length < (skip f v).length ∧
        (skip f v).head? ≠ some ')' := by
      rintro v rfl
      refine ⟨Nat.lt_of_lt_of_le hlt ((readersAgree n).brace htail), ?_⟩
      obtain ⟨_, _, _, _, -, hrepeats, -⟩ := readTail_eq_ok htail
      exact head?_ne_of_brace hrepeats
    obtain ⟨⟨a', s'⟩, ha'⟩ := persists_readUnit ha hz hahead' hltUnit hbrace
    obtain ⟨rfl, hs⟩ := hread.alike hz hahead' hltUnit (fun v hv => (hbrace v hv).1) ha'
    obtain ⟨r', htail', hr⟩ := ih.tail htail hz hs hlt
    refine ⟨r', fun m hm => ?_, hr⟩
    have hshort := length_lt_of_readUnit ha'
    rw [hu'] at hskip'
    rw [List.length_cons] at hskip' hshort
    cases m with
    | zero => omega
    | succ m => exact readSequence_unit hu' hc ha' (htail' m (by omega))

end ReadersPersist

theorem readersPersist (n : Nat) : ReadersPersist n := by
  induction n with
  | zero => exact .zero
  | succ n ih => exact ⟨ih.alternatives_succ, ih.sequence_succ, ih.closed_succ, ih.tail_succ⟩

end Together

/-! ### Sources between anchors -/

/-- A source that can be read between anchors is an expression by itself, unless it closes a
parenthesis that it does not open. -/
theorem parse_of_parseWhole {source : String} {w : Regex} (hw : parseWhole source = .ok w) :
    (∃ b, parse source = .ok b) ∨ parse source = .error .unopenedGroup := by
  obtain ⟨n, -, q, u, -, -, hq, -, -⟩ := readAlternatives_of_anchored hw
  have hahead : Ahead ['$'] [] (source.toList ++ [')', '$']) (source.toList ++ []) := .append _
  rw [List.append_nil] at hahead
  obtain ⟨r, hr, -⟩ := (readersPersist n).alternatives hq (.inl rfl) hahead
    (one_lt_length_of_suffix ((readersAgree n).alternatives hq).suffix)
  have halone : readAlternatives (4 * source.toList.length + 4) {} {} source.toList =
      .ok (q, r) := hr _ (Nat.le_refl _)
  cases r with
  | nil =>
      -- The source alone is no deeper and weighs no more than it does between anchors.
      obtain ⟨hwhole, hdepth, -⟩ := parseChars_anchored halone hw
      obtain ⟨-, -, -, hweight⟩ := parseChars_eq_ok.1 hw
      rw [hwhole] at hweight
      refine .inl ⟨q.regex, parseChars_eq_ok.2 ⟨q.row.depth, ?_, hdepth,
        Nat.le_trans (weight_le_whole q.regex) hweight⟩⟩
      rw [readWhole, halone]
      rfl
  | cons c r =>
      refine .inr ?_
      rw [parse, parseChars, readWhole, halone]
      rfl

end RouteEngine.Regex
