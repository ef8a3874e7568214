import RouteEngine.Proofs.Regex.Alone
import RouteEngine.Proofs.Regex.Brackets

/-!
Readers of the units of a sequence look no further than they read: what an opening parenthesis
begins, single characters and classes, and the repetitions behind them. The number that a group
gets depends on the groups before it, so openings are compared before they are numbered and
repetitions with their groups renumbered.
-/

namespace RouteEngine.Regex

open Outcome

variable {z z' t t' r r' : List Char} {f : Flags} {n : Nat}

/-! ### Openings -/

theorem reads_readFlags {seen : List Char} {on : Bool} {v : Flags × Char × Bool}
    (h : readFlags f seen on t = .ok (v, r)) : Reads (Gives (readFlags f seen on)) t v r := by
  induction t generalizing f seen on with
  | nil => simp [readFlags] at h
  | cons c t ih =>
      rw [readFlags] at h
      split at h
      · next hend =>
          split at h
          · simp at h
          · next hminus =>
              cases h
              refine (Reads.kept (f, c, seen.isEmpty) r).cons fun t' x hx => ?_
              rw [Gives, readFlags, if_pos hend, if_neg hminus] at hx
              cases hx
              rfl
      · next hend =>
          split at h
          · simp at h
          · next hseen =>
              split at h
              · next hminus =>
                  refine (ih h).cons fun t' x hx => ?_
                  rwa [Gives, readFlags, if_neg hend, if_neg hseen, if_pos hminus] at hx
              · next hminus =>
                  split at h
                  · next f' hset =>
                      refine (ih h).cons fun t' x hx => ?_
                      rw [Gives, readFlags, if_neg hend, if_neg hseen, if_neg hminus, hset] at hx
                      exact hx
                  · simp at h

theorem reads_readGroupName {name : String} (h : readGroupName t = .ok (name, r)) :
    Reads (Gives readGroupName) t name r := by
  rw [readGroupName] at h
  split at h
  · simp at h
  · next cs s hsplit =>
      obtain ⟨rfl, hcs⟩ := Text.splitFirst_eq_some.1 hsplit
      split at h
      · simp at h
      · next c cs =>
          split at h
          · next hname =>
              cases h
              have hsuffix : r <:+ (c :: cs ++ ['>']) ++ r := List.suffix_append _ _
              refine ⟨by simpa using hsuffix, fun z z' t' v' r' hz ha hlt hx => ?_⟩
              obtain ⟨u, rfl, hu⟩ := ha.append_of_length_lt (c :: cs) (by simp; omega)
              obtain ⟨r'', rfl, hr⟩ := hu.uncons hlt
              rw [Gives, readGroupName, Text.splitFirst_eq_some.2 ⟨rfl, hcs⟩] at hx
              simp only [if_pos hname] at hx
              cases hx
              exact ⟨rfl, hr⟩
          · simp at h

/-- What an opening parenthesis begins, before its group has a number. -/
inductive Beginning
  | group
  | named (name : String)
  | plain (flags : Flags)
  | flags (flags : Flags)

/-- What flags begin, by the character behind them. -/
def flagsBeginning (v : Flags × Char × Bool) : Result Beginning :=
  if v.2.1 = ':' then .ok (.plain v.1)
  else if v.2.2 then .error .nothingToRepeat
  else .ok (.flags v.1)

def readBeginning (f : Flags) : List Char → Result (Beginning × List Char)
  | '?' :: 'P' :: '<' :: r => do
    let (name, r) ← readGroupName r
    return (.named name, r)
  | '?' :: '<' :: r => do
    let (name, r) ← readGroupName r
    return (.named name, r)
  | '?' :: r => do
    let (v, r) ← readFlags f [] true r
    let b ← flagsBeginning v
    return (b, r)
  | r => .ok (.group, r)

def Beginning.open (g : Groups) : Beginning → Result (Opening × Groups)
  | group => .ok (.group g.next, { g with next := g.next + 1 })
  | named name => do
    let g' ← ({ g with next := g.next + 1 } : Groups).named name
    return (.group g.next, g')
  | plain f => .ok (.plain f, g)
  | flags f => .ok (.flags f, g)

theorem readGroupName_open (g : Groups) (cs : List Char) :
    (do
      let (name, r) ← readGroupName cs
      let (i, g) := g.open
      let g ← g.named name
      return ((.group i, g), r) : Result ((Opening × Groups) × List Char)) =
        (do
          let (name, r) ← readGroupName cs
          return (.named name, r)) >>= fun (b, r) => (Beginning.open g b).map fun x => (x, r) := by
  cases readGroupName cs with
  | error e => rfl
  | ok x =>
      obtain ⟨name, r⟩ := x
      simp only [bind, Except.bind, pure, Except.pure, Groups.open, Beginning.open]
      cases Groups.named { g with next := g.next + 1 } name <;> rfl

theorem readFlags_open (g : Groups) (cs : List Char) :
    (do
      let ((f', c, bare), r) ← readFlags f [] true cs
      if c = ':' then return ((.plain f', g), r)
      else if bare then .error .nothingToRepeat
      else return ((.flags f', g), r) : Result ((Opening × Groups) × List Char)) =
        (do
          let (v, r) ← readFlags f [] true cs
          let b ← flagsBeginning v
          return (b, r)) >>= fun (b, r) => (Beginning.open g b).map fun x => (x, r) := by
  cases readFlags f [] true cs with
  | error e => rfl
  | ok x =>
      obtain ⟨⟨f', c, bare⟩, r⟩ := x
      simp only [bind, Except.bind, flagsBeginning]
      split
      · rfl
      · split <;> rfl

theorem readOpening_eq (f : Flags) (g : Groups) (cs : List Char) :
    readOpening f g cs =
      if startsLookAround (skip f cs) then .error .lookAround
      else readBeginning f (skip f cs) >>= fun (b, r) => (b.open g).map fun x => (x, r) := by
  rw [readOpening]
  generalize skip f cs = u
  split
  · rfl
  · simp only
    split
    · exact readGroupName_open g _
    · exact readGroupName_open g _
    · next r hp hname _ =>
        rw [readBeginning.eq_3 f r hp hname]
        exact readFlags_open g r
    · next hp hname hmark =>
        rw [readBeginning.eq_4 f u hp hname hmark]
        rfl

theorem reads_readBeginning {b : Beginning} (h : readBeginning f t = .ok (b, r)) :
    Reads (Gives (readBeginning f)) t b r := by
  have hnamed : ∀ {u : List Char}, (do
      let (name, r) ← readGroupName u
      return (Beginning.named name, r)) = .ok (b, r) → Reads (Gives fun u => do
        let (name, r) ← readGroupName u
        return (Beginning.named name, r)) u b r := by
    intro u h
    obtain ⟨⟨name, s⟩, hname, h⟩ := bind_eq_ok.1 h
    cases pure_eq_ok.1 h
    exact (reads_readGroupName hname).andThen (k := fun name => .ok (Beginning.named name)) rfl
  rw [readBeginning.eq_def] at h
  split at h
  · exact (hnamed h).append ['?', 'P', '<'] fun t' x => id
  · exact (hnamed h).append ['?', '<'] fun t' x => id
  · next u hp hname =>
      obtain ⟨⟨v, s⟩, hflags, h⟩ := bind_eq_ok.1 h
      obtain ⟨d, hd, h⟩ := bind_eq_ok.1 h
      cases pure_eq_ok.1 h
      have hread := (reads_readFlags hflags).andThen hd
      refine ⟨hread.suffix.trans (List.suffix_cons _ u), fun z z' t' v' r' hz ha hlt h' => ?_⟩
      obtain ⟨u', rfl, hinside⟩ := ha.cons_left (by decide)
      have hp' : ∀ w, u' = 'P' :: '<' :: w → False := by
        rintro w rfl
        obtain ⟨v, rfl, -⟩ := hinside.append_right ['P', '<'] hz (by decide)
        exact hp v rfl
      have hname' : ∀ w, u' = '<' :: w → False := by
        rintro w rfl
        obtain ⟨v, rfl, -⟩ := hinside.append_right ['<'] hz (by decide)
        exact hname v rfl
      rw [Gives, readBeginning.eq_3 f u' hp' hname'] at h'
      exact hread.alike hz hinside hlt h'
  · next hp hname hmark =>
      cases h
      refine ⟨List.suffix_rfl, fun z z' t' v' r' hz ha hlt h' => ?_⟩
      have hmark' : ∀ u, t' = '?' :: u → False := by
        rintro u rfl
        obtain ⟨v, rfl, -⟩ := ha.cons_right hz (by decide)
        exact hmark v rfl
      rw [Gives, readBeginning.eq_4 f t' (fun u => hmark' _) (fun u => hmark' _) hmark'] at h'
      cases h'
      exact ⟨rfl, ha⟩

/-! ### Counts -/

/-- White space, which may stand around a count in any expression. -/
abbrev dropWhite (cs : List Char) : List Char := cs.dropWhile fun c => Text.isWhite c.toNat

theorem Ahead.dropWhite (hz : Stop z') (h : Ahead z z' t t')
    (hlt : z.length < (dropWhite t).length) : Ahead z z' (dropWhite t) (Regex.dropWhite t') := by
  induction h with
  | here =>
      have hclose : ∀ w, Regex.dropWhite (')' :: w) = ')' :: w := fun _ => rfl
      rw [hclose]
      rcases hz with rfl | ⟨w, rfl⟩
      · exact .here
      · rw [hclose]
        exact .here
  | @cons c t t' h ih =>
      rw [Regex.dropWhite, Regex.dropWhite, List.dropWhile_cons, List.dropWhile_cons]
      split
      · next hwhite =>
          rw [Regex.dropWhite, List.dropWhile_cons, if_pos hwhite] at hlt
          exact ih hlt
      · exact .cons c h

theorem Reads.white {α : Type} {R K : List Char → α × List Char → Prop} {v : α}
    (h : Reads K (dropWhite t) v r) (hR : ∀ t' x, R t' x → K (dropWhite t') x) :
    Reads R t v r := by
  refine ⟨h.suffix.trans (List.dropWhile_suffix _), fun z z' u v' r' hz ha hlt h' => ?_⟩
  have hwhite := ha.dropWhite hz (Nat.lt_of_lt_of_le hlt h.suffix.length_le)
  exact h.alike hz hwhite hlt (hR _ _ h')

theorem digits_of_not_digit {acc : List Char} (h : ∀ c u, t = c :: u → c.isDigit = false) :
    readCount.digits f n acc t = (acc.reverse, t) := by
  cases n with
  | zero => rfl
  | succ n =>
      cases t with
      | nil => rfl
      | cons c t => simp [readCount.digits, h c t rfl]

theorem reads_digits {acc v : List Char} (h : readCount.digits f n acc t = (v, r))
    (hn : t.length ≤ n) :
    Reads (fun t x => ∃ m, t.length ≤ m ∧ readCount.digits f m acc t = x) t v r := by
  induction n generalizing acc t with
  | zero =>
      have hnil : t = [] := List.length_eq_zero_iff.1 (Nat.le_zero.1 hn)
      subst hnil
      cases h
      exact ⟨List.suffix_rfl, nofun⟩
  | succ n ih =>
      by_cases hdigit : ∃ c u, t = c :: u ∧ c.isDigit = true
      · obtain ⟨c, u, rfl, hc⟩ := hdigit
        have hshort := (skip_suffix f u).length_le
        rw [readCount.digits, if_pos hc] at h
        have hskip : Reads (fun t x => ∃ m, (skip f t).length ≤ m ∧
            readCount.digits f m (c :: acc) (skip f t) = x) u v r :=
          (ih h (by simp at hn; omega)).skip fun _ _ => id
        refine hskip.cons fun t' x ⟨m, hm, hx⟩ => ?_
        cases m with
        | zero => simp at hm
        | succ m =>
            have hshort' := (skip_suffix f t').length_le
            rw [readCount.digits, if_pos hc] at hx
            exact ⟨m, by simp at hm; omega, hx⟩
      · have hother : ∀ c u, t = c :: u → c.isDigit = false := by
          rintro c u rfl
          exact Bool.not_eq_true _ ▸ fun hc => hdigit ⟨c, u, rfl, hc⟩
        rw [digits_of_not_digit hother] at h
        cases h
        refine ⟨List.suffix_rfl, fun z z' t' v' r' hz ha hlt ⟨m, _, hx⟩ => ?_⟩
        have hother' : ∀ c u, t' = c :: u → c.isDigit = false := by
          rintro c u rfl
          by_cases hclose : c = ')'
          · subst hclose
            rfl
          · obtain ⟨v, rfl, -⟩ := ha.cons_right hz hclose
            exact hother c v rfl
        rw [digits_of_not_digit hother'] at hx
        cases hx
        exact ⟨rfl, ha⟩

/-- The number that digits stand for; none when there are none of them. -/
def countOf (ds : List Char) : Option (Option Nat) :=
  if ds.isEmpty then some none
  else
    let n := Text.digitsValue ds
    if n < Nat.pow 2 32 then some (some n) else none

theorem readCount_eq (f : Flags) (cs : List Char) :
    readCount f cs =
      (countOf (readCount.digits f (dropWhite cs).length [] (dropWhite cs)).1).map fun v =>
        (v, dropWhite (readCount.digits f (dropWhite cs).length [] (dropWhite cs)).2) := by
  rw [readCount, countOf]
  simp only
  split
  · rfl
  · split <;> rfl

theorem reads_readCount {v : Option Nat} (h : readCount f t = some (v, r)) :
    Reads (fun t x => readCount f t = some x) t v r := by
  obtain ⟨ds, s, hdigits⟩ : ∃ ds s,
      readCount.digits f (dropWhite t).length [] (dropWhite t) = (ds, s) := ⟨_, _, rfl⟩
  rw [readCount_eq, hdigits] at h
  obtain ⟨w, hw, heq⟩ := Option.map_eq_some_iff.1 h
  cases heq
  have hend : Reads (fun t x => x = (v, dropWhite t)) s v (dropWhite s) :=
    .white (.kept v _) fun _ _ => id
  have hread : Reads (fun t x => ∃ m ds s, t.length ≤ m ∧ readCount.digits f m [] t = (ds, s) ∧
      (countOf ds).map (fun v => (v, dropWhite s)) = some x) (dropWhite t) v (dropWhite s) := by
    refine (reads_digits hdigits (Nat.le_refl _)).bind hend ?_
    rintro t' x ⟨m, ds', s', hm, hx, hcount⟩
    refine ⟨ds', s', ⟨m, hm, hx⟩, ?_⟩
    rintro rfl
    rw [hw] at hcount
    cases hcount
    rfl
  refine hread.white fun t' x hx => ?_
  rw [readCount_eq] at hx
  exact ⟨_, _, _, Nat.le_refl _, rfl, hx⟩

/-- The greatest count, behind the comma. -/
def countsMost (f : Flags) (least : Nat) : List Char → Result ((Nat × Option Nat) × List Char)
  | '\x7d' :: r => .ok ((least, none), skip f r)
  | r =>
    match readCount f r with
    | some (some most, '\x7d' :: r) =>
      if least ≤ most then .ok ((least, some most), skip f r) else .error .badCount
    | _ => .error .badCount

/-- What follows the least count. -/
def countsRest (f : Flags) (least : Nat) : List Char → Result ((Nat × Option Nat) × List Char)
  | '\x7d' :: r => .ok ((least, some least), skip f r)
  | ',' :: r => countsMost f least (skip f r)
  | _ => .error .badCount

theorem readCounts_eq (f : Flags) (cs : List Char) :
    readCounts f cs =
      match readCount f (skip f cs) with
      | some (some least, r) => countsRest f least r
      | _ => .error .badCount := by
  rw [readCounts]
  cases readCount f (skip f cs) with
  | none => rfl
  | some x =>
      obtain ⟨least, r⟩ := x
      cases least with
      | none => rfl
      | some least =>
          simp only
          split
          · rfl
          · exact (countsMost.eq_def f least _).symm
          · next hbrace hcomma => rw [countsRest.eq_3 f least r hbrace hcomma]

theorem reads_countsMost {least : Nat} {v : Nat × Option Nat}
    (h : countsMost f least t = .ok (v, r)) : Reads (Gives (countsMost f least)) t v r := by
  rw [countsMost.eq_def] at h
  split at h
  · cases h
    refine (Reads.skipped (least, none) f _).cons fun t' x hx => ?_
    cases hx
    rfl
  · next hbrace =>
      split at h
      · next most s hcount =>
          split at h
          · next hle =>
              cases h
              have hread := reads_readCount hcount
              have hsuffix := (skip_suffix f s).trans (List.suffix_cons '\x7d' s)
              refine ⟨hsuffix.trans hread.suffix, fun z z' t' v' r' hz ha hlt h' => ?_⟩
              have hbrace' : ∀ u, t' = '\x7d' :: u → False := by
                rintro u rfl
                obtain ⟨w, rfl, -⟩ := ha.cons_right hz (by decide)
                exact hbrace w rfl
              rw [Gives, countsMost.eq_2 f least t' hbrace'] at h'
              split at h'
              · next most' s' hcount' =>
                  obtain ⟨heq, hrest⟩ :=
                    hread.alike hz ha (Nat.lt_of_lt_of_le hlt hsuffix.length_le) hcount'
                  cases heq
                  obtain ⟨s'', hs, hinside⟩ := hrest.cons_left (by decide)
                  cases hs
                  rw [if_pos hle] at h'
                  cases h'
                  exact ⟨rfl, hinside.skip hz hlt⟩
              · simp at h'
          · simp at h
      · simp at h

theorem reads_countsRest {least : Nat} {v : Nat × Option Nat}
    (h : countsRest f least t = .ok (v, r)) : Reads (Gives (countsRest f least)) t v r := by
  rw [countsRest.eq_def] at h
  split at h
  · cases h
    refine (Reads.skipped (least, some least) f _).cons fun t' x hx => ?_
    cases hx
    rfl
  · next u =>
      have hskip : Reads (fun t x => countsMost f least (skip f t) = .ok x) u v r :=
        (reads_countsMost h).skip fun _ _ => id
      exact hskip.cons fun t' x => id
  · simp at h

/-- Counts begin behind the blanks that stand after the brace. -/
theorem suffix_readCounts {v : Nat × Option Nat} (h : readCounts f t = .ok (v, r)) :
    r <:+ skip f t := by
  rw [readCounts_eq] at h
  split at h
  · next least s hcount =>
      exact (reads_countsRest h).suffix.trans (reads_readCount hcount).suffix
  · simp at h

theorem reads_readCounts {v : Nat × Option Nat} (h : readCounts f t = .ok (v, r)) :
    Reads (Gives (readCounts f)) t v r := by
  rw [readCounts_eq] at h
  split at h
  · next least s hcount =>
      have hread : Reads (fun t x => ∃ v s, readCount f t = some (v, s) ∧
          ∃ least, v = some least ∧ countsRest f least s = .ok x) (skip f t) v r := by
        refine (reads_readCount hcount).bind (reads_countsRest h) ?_
        rintro t' x ⟨v', s', hv, least', rfl, hx⟩
        refine ⟨_, s', hv, ?_⟩
        rintro ⟨⟩
        exact hx
      refine hread.skip fun t' x hx => ?_
      rw [Gives, readCounts_eq] at hx
      split at hx
      · next least' s' hcount' => exact ⟨_, s', hcount', least', rfl, hx⟩
      · simp at hx
  · simp at h

/-! ### Repetitions -/

theorem renumber_copies (g : Nat → Nat) (a : Regex) (n : Nat) :
    (copies a n).renumber g = copies (a.renumber g) n := by
  induction n using copies.induct with
  | case1 => rfl
  | case2 => rfl
  | case3 n ih => simp [copies, renumber, ih]

theorem renumber_upTo (g : Nat → Nat) (greedy : Bool) (a : Regex) (n : Nat) :
    (upTo greedy a n).renumber g = upTo greedy (a.renumber g) n := by
  induction n using upTo.induct with
  | case1 => rfl
  | case2 => rfl
  | case3 n ih => simp [upTo, renumber, ih]

theorem renumber_repeated (g : Nat → Nat) (greedy : Bool) (a : Regex) (least : Nat)
    (most : Option Nat) :
    (repeated greedy a least most).renumber g = repeated greedy (a.renumber g) least most := by
  cases most with
  | none =>
      match least with
      | 0 => rfl
      | 1 => rfl
      | n + 2 => simp [repeated, renumber, renumber_copies]
  | some most =>
      rw [repeated, repeated]
      split
      · exact renumber_copies g a least
      · split
        · exact renumber_upTo g greedy a most
        · simp [renumber, renumber_copies, renumber_upTo]

def Part.renumber (g : Nat → Nat) (a : Part) : Part := ⟨a.regex.renumber g, a.depth⟩

theorem Part.renumber_id (a : Part) : a.renumber id = a := by
  rw [Part.renumber, Regex.renumber_id]

theorem Part.renumber_repeated (g : Nat → Nat) (greedy : Bool) (a : Part) (least : Nat)
    (most : Option Nat) :
    (a.repeated greedy least most).renumber g = (a.renumber g).repeated greedy least most := by
  simp only [Part.repeated, Part.renumber, Regex.renumber_repeated]

/-- The least and the greatest number of rounds, if a repetition stands here. -/
def readMark (f : Flags) : List Char → Option (Result ((Nat × Option Nat) × List Char))
  | '*' :: r => some (.ok ((0, none), r))
  | '+' :: r => some (.ok ((1, none), r))
  | '?' :: r => some (.ok ((0, some 1), r))
  | '\x7b' :: r => some (readCounts f r)
  | _ => none

def isMark (c : Char) : Bool := ['*', '+', '?', '\x7b'].contains c

theorem readMark_eq_none_iff : readMark f t = none ↔ ∀ c ∈ t.head?, isMark c = false := by
  cases t with
  | nil => simp [readMark]
  | cons c u =>
      simp only [List.head?_cons, Option.mem_def, Option.some.injEq, forall_eq']
      by_cases hmark : isMark c = true
      · have hmem : c ∈ ['*', '+', '?', '\x7b'] := by simpa [isMark] using hmark
        simp only [List.mem_cons, List.not_mem_nil, or_false] at hmem
        rcases hmem with rfl | rfl | rfl | rfl <;> simp [readMark, isMark]
      · have hother : ∀ d v, isMark d = true → c :: u = d :: v → False := by
          rintro d v hd ⟨⟩
          exact hmark hd
        rw [readMark.eq_5 f _ (fun v => hother _ v rfl) (fun v => hother _ v rfl)
          (fun v => hother _ v rfl) (fun v => hother _ v rfl)]
        simpa using hmark

/-- A repetition stands in both texts or in neither. -/
theorem Ahead.readMark_eq_none_iff (hz : Stop z') (ha : Ahead z z' t t') :
    readMark f t' = none ↔ readMark f t = none := by
  simp only [Regex.readMark_eq_none_iff, Option.mem_def]
  have hclose : ∀ c, isMark c = true → c ≠ ')' := by
    rintro c hc rfl
    cases hc
  constructor
  · intro h c hc
    rw [← Bool.not_eq_true]
    intro hmark
    have := h c ((ha.head?_eq_some_iff hz (hclose c hmark)).2 hc)
    simp [hmark] at this
  · intro h c hc
    rw [← Bool.not_eq_true]
    intro hmark
    have := h c ((ha.head?_eq_some_iff hz (hclose c hmark)).1 hc)
    simp [hmark] at this

/-- One more repetition, unless the expression is too heavy for it. -/
def repeatOnce (f : Flags) (n : Nat) (a : Part) (v : Nat × Option Nat) (cs : List Char) :
    Result (Part × List Char) :=
  if weightLimit < v.2.getD v.1 * a.regex.weight then .error .tooLarge
  else readRepeats f n (a.repeated ((lazyMark cs).1 == f.swapGreed) v.1 v.2) (lazyMark cs).2

theorem readRepeats_succ (a : Part) (cs : List Char) :
    readRepeats f (n + 1) a cs =
      match readMark f (skip f cs) with
      | some x => x >>= fun (v, r) => repeatOnce f n a v r
      | none => .ok (a, skip f cs) := by
  rw [readRepeats]
  generalize skip f cs = u
  split
  any_goals rfl
  · next hstar hplus hquestion hbrace =>
      rw [readMark.eq_5 f u hstar hplus hquestion hbrace]

theorem readRepeats_eq_ok {a b : Part} (h : readRepeats f (n + 1) a t = .ok (b, r)) :
    (readMark f (skip f t) = none ∧ b = a ∧ r = skip f t) ∨
      ∃ v s lazy s', readMark f (skip f t) = some (.ok (v, s)) ∧ lazyMark s = (lazy, s') ∧
        readRepeats f n (a.repeated (lazy == f.swapGreed) v.1 v.2) s' = .ok (b, r) := by
  rw [readRepeats_succ] at h
  split at h
  · next res hmark =>
      obtain ⟨⟨v, s⟩, rfl, hrest⟩ := bind_eq_ok.1 h
      simp only [repeatOnce] at hrest
      split at hrest
      · simp at hrest
      · exact .inr ⟨v, s, _, _, hmark, rfl, hrest⟩
  · next hmark =>
      cases h
      exact .inl ⟨hmark, rfl, rfl⟩

theorem reads_readMark {v : Nat × Option Nat} (hm : readMark f t = some (.ok (v, r))) :
    Reads (fun t x => readMark f t = some (.ok x)) t v r := by
  rw [readMark.eq_def] at hm
  split at hm
  · cases hm
    refine (Reads.kept (0, none) r).cons fun t' x hx => ?_
    cases hx
    rfl
  · cases hm
    refine (Reads.kept (1, none) r).cons fun t' x hx => ?_
    cases hx
    rfl
  · cases hm
    refine (Reads.kept (0, some 1) r).cons fun t' x hx => ?_
    cases hx
    rfl
  · exact (reads_readCounts (Option.some.inj hm)).cons fun t' x hx => Option.some.inj hx
  · simp at hm

theorem reads_lazyMark {v : Bool} (h : lazyMark t = (v, r)) :
    Reads (fun t x => lazyMark t = x) t v r := by
  rw [lazyMark.eq_def] at h
  split at h
  · cases h
    refine (Reads.kept true r).cons fun t' x hx => ?_
    cases hx
    rfl
  · next hmark =>
      cases h
      refine ⟨List.suffix_rfl, fun z z' t' v' r' hz ha hlt h' => ?_⟩
      rw [lazyMark.eq_def] at h'
      split at h'
      · next u =>
          obtain ⟨w, rfl, -⟩ := ha.cons_right hz (by decide)
          exact absurd rfl (hmark w)
      · cases h'
        exact ⟨rfl, ha⟩

/-- Every mark takes up a character, so as much fuel as there are characters is never used up. -/
theorem length_lt_of_readMark {v : Nat × Option Nat} (h : readMark f t = some (.ok (v, r))) :
    r.length < t.length := by
  rw [readMark.eq_def] at h
  split at h
  any_goals
    cases h
    exact Nat.lt_succ_self _
  · exact Nat.lt_succ_of_le
      ((suffix_readCounts (Option.some.inj h)).trans (skip_suffix f _)).length_le
  · simp at h

/-- The rest that repetitions leave, and what they make of the same expression with its groups
numbered differently. -/
structure ReadsPart (R : Nat → List Char → Part × List Char → Prop) (t : List Char) (a : Part)
    (r : List Char) : Prop where
  suffix : r <:+ t
  alike : ∀ ⦃d z z' t' a' r'⦄, Stop z' → Ahead z z' t t' → z.length < r.length →
    R d t' (a', r') → a' = a.renumber (· + d) ∧ Ahead z z' r r'

theorem reads_readRepeats {a b : Part} (h : readRepeats f n a t = .ok (b, r))
    (hn : t.length < n) :
    ReadsPart (fun d t x => ∃ m, t.length < m ∧ readRepeats f m (a.renumber (· + d)) t = .ok x)
      t b r := by
  induction n generalizing a t with
  | zero => simp at hn
  | succ n ih =>
      have hskip := skip_suffix f t
      obtain ⟨hmark, rfl, rfl⟩ | ⟨v, s, lazy, s', hmark, hlazy, hrest⟩ := readRepeats_eq_ok h
      · refine ⟨hskip, fun d z z' t' b' r' hz ha hlt ⟨m, hm, hx⟩ => ?_⟩
        have hahead := ha.skip hz hlt
        cases m with
        | zero => simp at hm
        | succ m =>
            obtain ⟨-, rfl, rfl⟩ | ⟨v, s, -, -, hmark', -, -⟩ := readRepeats_eq_ok hx
            · exact ⟨rfl, hahead⟩
            · rw [(hahead.readMark_eq_none_iff hz).2 hmark] at hmark'
              cases hmark'
      · have hmarkRead := reads_readMark hmark
        have hlazyRead := reads_lazyMark hlazy
        have hshort := length_lt_of_readMark hmark
        have hle := hskip.length_le
        have hle' := hlazyRead.suffix.length_le
        have hread := ih hrest (by omega)
        refine ⟨((hread.suffix.trans hlazyRead.suffix).trans hmarkRead.suffix).trans hskip,
          fun d z z' t' b' r' hz ha hlt ⟨m, hm, hx⟩ => ?_⟩
        have hltLazy := Nat.lt_of_lt_of_le hlt hread.suffix.length_le
        have hltMark := Nat.lt_of_lt_of_le hltLazy hle'
        have hahead := ha.skip hz (Nat.lt_of_lt_of_le hltMark hmarkRead.suffix.length_le)
        cases m with
        | zero => simp at hm
        | succ m =>
            obtain ⟨hmark', -, -⟩ | ⟨v', w, lazy', w', hmark', hlazy', hrest'⟩ :=
              readRepeats_eq_ok hx
            · rw [(hahead.readMark_eq_none_iff hz).1 hmark'] at hmark
              cases hmark
            · obtain ⟨rfl, hw⟩ := hmarkRead.alike hz hahead hltMark hmark'
              obtain ⟨rfl, hw'⟩ := hlazyRead.alike hz hw hltLazy hlazy'
              have hshort' := length_lt_of_readMark hmark'
              have hskip' := (skip_suffix f t').length_le
              have hlazyShort := (reads_lazyMark hlazy').suffix.length_le
              rw [← Part.renumber_repeated] at hrest'
              exact hread.alike hz hw' hlt ⟨m, by omega, hrest'⟩

/-- A brace that counts is taken up together with the blanks behind it. -/
theorem length_le_of_brace {a b : Part} {u : List Char}
    (h : readRepeats f n a ('\x7b' :: u) = .ok (b, r)) (hn : ('\x7b' :: u).length < n) :
    r.length ≤ (skip f u).length := by
  have hbrace : skip f ('\x7b' :: u) = '\x7b' :: u := skip_cons (by decide) (by decide)
  cases n with
  | zero => simp at hn
  | succ n =>
      obtain ⟨hmark, -, -⟩ | ⟨v, s, lazy, s', hmark, hlazy, hrest⟩ := readRepeats_eq_ok h
      · rw [hbrace] at hmark
        cases hmark
      · have hshort := length_lt_of_readMark hmark
        have hlazyShort := (reads_lazyMark hlazy).suffix.length_le
        rw [hbrace] at hmark hshort
        have hcounts := (suffix_readCounts (Option.some.inj hmark)).length_le
        have hsuffix := (reads_readRepeats hrest (by omega)).suffix.length_le
        omega

/-! ### Units without groups -/

/-- A single character, class or condition. -/
def readUnit (f : Flags) : List Char → Result (Regex × List Char)
  | [] => .error .nothingToRepeat
  | '[' :: r => do
    let (c, r) ← readClass f r
    return (.chars c, r)
  | '.' :: r => do
    let a ← Item.any.toRegex f
    return (a, r)
  | '^' :: r => .ok (.look (caretLook f), r)
  | '$' :: r => .ok (.look (dollarLook f), r)
  | '\\' :: r => do
    let (i, r) ← readEscape f r
    let a ← i.toRegex f
    return (a, r)
  | c :: r => do
    let a ← (Item.literal c).toRegex f
    return (a, r)

theorem groupIndices_toRegex {i : Item} {a : Regex} (h : i.toRegex f = .ok a) :
    a.groupIndices = [] := by
  cases i with
  | any =>
      obtain ⟨c, -, rfl⟩ := map_eq_ok.1 h
      rfl
  | _ =>
      cases h
      rfl

theorem renumber_of_groupIndices_eq_nil {a : Regex} (h : a.groupIndices = []) (g : Nat → Nat) :
    a.renumber g = a := by
  induction a <;> simp_all [renumber, groupIndices]

theorem Part.regex_unit (a : Regex) : (Part.unit a).regex = a := by
  cases a <;> rfl

theorem Part.renumber_unit {a : Regex} (h : a.groupIndices = []) (g : Nat → Nat) :
    (Part.unit a).renumber g = .unit a := by
  have ha := renumber_of_groupIndices_eq_nil h g
  cases a <;> simp_all [Part.unit, Part.renumber]

theorem groupIndices_readUnit {a : Regex} (h : readUnit f t = .ok (a, r)) :
    a.groupIndices = [] := by
  rw [readUnit.eq_def] at h
  split at h
  · simp at h
  · obtain ⟨⟨c, s⟩, -, h⟩ := bind_eq_ok.1 h
    cases pure_eq_ok.1 h
    rfl
  · obtain ⟨b, hb, h⟩ := bind_eq_ok.1 h
    cases pure_eq_ok.1 h
    exact groupIndices_toRegex hb
  · cases h
    rfl
  · cases h
    rfl
  · obtain ⟨⟨i, s⟩, -, h⟩ := bind_eq_ok.1 h
    obtain ⟨b, hb, h⟩ := bind_eq_ok.1 h
    cases pure_eq_ok.1 h
    exact groupIndices_toRegex hb
  · obtain ⟨b, hb, h⟩ := bind_eq_ok.1 h
    cases pure_eq_ok.1 h
    exact groupIndices_toRegex hb

theorem ReadsPast.andThen {α β : Type} {mark : Char} {F : List Char → Result (β × List Char)}
    {k : β → Result α} {v : α} {w : β} (h : ReadsPast mark f (Gives F) t w r) (hk : k w = .ok v) :
    ReadsPast mark f (Gives fun t => do
      let (w, r) ← F t
      let v ← k w
      return (v, r)) t v r := by
  refine ⟨h.suffix, fun z z' t' v' r' hz ha hlt hmark hx => ?_⟩
  obtain ⟨⟨w', s'⟩, hw', hx⟩ := bind_eq_ok.1 hx
  obtain ⟨v'', hv', hx⟩ := bind_eq_ok.1 hx
  cases pure_eq_ok.1 hx
  obtain ⟨rfl, hs⟩ := h.alike hz ha hlt hmark hw'
  rw [hk] at hv'
  cases hv'
  exact ⟨rfl, hs⟩

theorem ReadsPast.cons {α : Type} {mark c : Char} {R K : List Char → α × List Char → Prop} {v : α}
    (h : ReadsPast mark f K t v r) (hR : ∀ t' x, R (c :: t') x → K t' x) :
    ReadsPast mark f R (c :: t) v r := by
  refine ⟨h.suffix.trans (List.suffix_cons c t), fun z z' u v' r' hz ha hlt hmark h' => ?_⟩
  obtain ⟨t', rfl, hahead⟩ := ha.uncons (Nat.lt_of_lt_of_le hlt h.suffix.length_le)
  exact h.alike hz hahead hlt hmark (hR _ _ h')

theorem reads_escape {i : Item} (h : readEscape f t = .ok (i, r)) :
    ReadsPast '\x7b' f (Gives (readEscape f)) t i r := by
  by_cases hb : t.head? = some 'b'
  · cases t with
    | nil => simp at hb
    | cons c u =>
        cases hb
        exact (reads_readBoundary h).cons fun t' x => id
  · exact (reads_readEscape h hb).past

theorem reads_readUnit {a : Regex} (h : readUnit f t = .ok (a, r)) :
    ReadsPast '\x7b' f (Gives (readUnit f)) t a r := by
  rw [readUnit.eq_def] at h
  split at h
  · simp at h
  · obtain ⟨⟨c, s⟩, hc, h⟩ := bind_eq_ok.1 h
    cases pure_eq_ok.1 h
    have hread := (reads_readClass hc).andThen (k := fun c => .ok (Regex.chars c)) rfl
    exact (hread.cons fun t' x => id).past
  · obtain ⟨b, hb, h⟩ := bind_eq_ok.1 h
    cases pure_eq_ok.1 h
    refine ((Reads.kept _ _).cons fun t' x hx => ?_).past
    rw [Gives, readUnit, hb] at hx
    cases hx
    rfl
  · cases h
    refine ((Reads.kept _ _).cons fun t' x hx => ?_).past
    cases hx
    rfl
  · cases h
    refine ((Reads.kept _ _).cons fun t' x hx => ?_).past
    cases hx
    rfl
  · obtain ⟨⟨i, s⟩, hi, h⟩ := bind_eq_ok.1 h
    obtain ⟨b, hb, h⟩ := bind_eq_ok.1 h
    cases pure_eq_ok.1 h
    exact ((reads_escape hi).andThen hb).cons fun t' x => id
  · next c u hclass hdot hcaret hdollar hescape =>
      obtain ⟨b, hb, h⟩ := bind_eq_ok.1 h
      cases pure_eq_ok.1 h
      refine ((Reads.kept _ _).cons fun t' x hx => ?_).past
      rw [Gives, readUnit.eq_7 f c t' hclass hdot hcaret hdollar hescape, hb] at hx
      cases hx
      rfl

end RouteEngine.Regex
