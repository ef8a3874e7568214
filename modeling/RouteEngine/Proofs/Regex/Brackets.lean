import RouteEngine.Proofs.Regex.Ahead
import RouteEngine.Proofs.Text.Split

/-!
Readers of bracketed classes look no further than they read. A closing parenthesis has no meaning
in brackets, so it may stand there for itself; but the names of classes have none, and what
follows the closing bracket of a class is left alone.
-/

namespace RouteEngine.Regex

open Outcome

variable {z z' t t' r r' : List Char} {f : Flags} {n : Nat}

/-! ### Items and ranges -/

theorem isLook_of_readBoundary {i : Item} (h : readBoundary f t = .ok (i, r)) :
    ∃ l, i = .look l := by
  obtain ⟨rfl, -⟩ | ⟨-, -, -, name, -, -, -, -, hitem⟩ := readBoundary_cases h
  · exact ⟨_, rfl⟩
  · rw [boundaryItem] at hitem
    split at hitem
    all_goals cases hitem
    all_goals exact ⟨_, rfl⟩

/-- A class has no conditions on places in it. -/
theorem reads_readClassItem {i : Item} (h : readClassItem f t = .ok (i, r))
    (hi : ∀ l, i ≠ .look l) : Reads (Gives (readClassItem f)) t i r := by
  rw [readClassItem.eq_def] at h
  split at h
  · simp at h
  · next u =>
      have hb : u.head? ≠ some 'b' := by
        intro hhead
        cases u with
        | nil => simp at hhead
        | cons c u =>
            cases hhead
            obtain ⟨l, rfl⟩ := isLook_of_readBoundary h
            exact hi l rfl
      exact (reads_readEscape h hb).cons fun t' x => id
  · next c u hc =>
      cases h
      refine (Reads.kept (Item.literal c) r).cons fun t' x h => ?_
      rw [Gives, readClassItem.eq_3 f c t' hc] at h
      cases h
      rfl

theorem Item.ne_look_of_asClass {i : Item} {c : CharClass} (h : i.asClass = .ok c) (l : Look) :
    i ≠ .look l := by
  rintro rfl
  cases h

theorem Item.ne_look_of_asEnd {i : Item} {c : Char} (h : i.asEnd = .ok c) (l : Look) :
    i ≠ .look l := by
  rintro rfl
  cases h

def rangeOf (first last : Item) : Result CharClass := do
  let a ← first.asEnd
  let b ← last.asEnd
  if a ≤ b then return .range a b else .error .badClassRange

/-- The second half of a range, behind the hyphen. -/
def rangeEnd (f : Flags) (first : Item) : List Char → Result (CharClass × List Char)
  | [] => .error .unclosedClass
  | r => do
    let (last, r) ← readClassItem f r
    let c ← rangeOf first last
    return (c, r)

/-- What follows the first item of a range, or of none. -/
def rangeRest (f : Flags) (first : Item) : List Char → Result (CharClass × List Char)
  | [] => .error .unclosedClass
  | '-' :: r =>
    if (skip f r).head? = some ']' || (skip f r).head? = some '-' then do
      let c ← first.asClass
      return (c, '-' :: r)
    else rangeEnd f first (skip f r)
  | r => do
    let c ← first.asClass
    return (c, r)

theorem readClassRange_eq (f : Flags) (cs : List Char) :
    readClassRange f cs =
      readClassItem f cs >>= fun (first, r) => rangeRest f first (skip f r) := by
  rw [readClassRange]
  congr 1
  funext ⟨first, r⟩
  simp only
  generalize skip f r = u
  split
  · rfl
  · next s =>
      rw [rangeRest]
      split
      · rfl
      · generalize skip f s = w
        split
        · rfl
        · next hnil =>
            rw [rangeEnd.eq_2 f first w hnil]
            congr 1
            funext ⟨last, s⟩
            simp only [rangeOf]
            cases first.asEnd with
            | error e => rfl
            | ok a =>
                cases last.asEnd with
                | error e => rfl
                | ok b =>
                    simp only [bind, Except.bind]
                    split <;> rfl
  · next hnil hhyphen => rw [rangeRest.eq_3 f first u hnil hhyphen]

theorem rangeOf_eq_ok {first last : Item} {c : CharClass} (h : rangeOf first last = .ok c) :
    (∀ l, first ≠ .look l) ∧ ∀ l, last ≠ .look l := by
  obtain ⟨a, ha, h⟩ := bind_eq_ok.1 h
  obtain ⟨b, hb, -⟩ := bind_eq_ok.1 h
  exact ⟨Item.ne_look_of_asEnd ha, Item.ne_look_of_asEnd hb⟩

theorem reads_rangeEnd {first : Item} {c : CharClass} (h : rangeEnd f first t = .ok (c, r)) :
    Reads (Gives (rangeEnd f first)) t c r := by
  rw [rangeEnd.eq_def] at h
  split at h
  · simp at h
  · next hnil =>
      obtain ⟨⟨last, s⟩, hlast, h⟩ := bind_eq_ok.1 h
      obtain ⟨d, hd, h⟩ := bind_eq_ok.1 h
      cases pure_eq_ok.1 h
      refine ((reads_readClassItem hlast (rangeOf_eq_ok hd).2).andThen hd).mono ?_
      intro z z' t' x hz ha h
      rw [Gives, rangeEnd.eq_def] at h
      split at h
      · simp at h
      · exact h

/-- Whether a hyphen is left alone is decided by the character behind it. -/
theorem hyphen_mark_iff (hz : Stop z') (ha : Ahead z z' t t') :
    (t'.head? = some ']' || t'.head? = some '-') = true ↔
      (t.head? = some ']' || t.head? = some '-') = true := by
  simp only [Bool.or_eq_true, decide_eq_true_eq]
  rw [ha.head?_eq_some_iff hz (by decide), ha.head?_eq_some_iff hz (by decide)]

theorem reads_rangeRest {first : Item} {c : CharClass} (h : rangeRest f first t = .ok (c, r)) :
    ReadsPast '-' f (Gives (rangeRest f first)) t c r := by
  rw [rangeRest.eq_def] at h
  split at h
  · simp at h
  · next u =>
      split at h
      · next hmark =>
          obtain ⟨d, hd, h⟩ := bind_eq_ok.1 h
          cases pure_eq_ok.1 h
          refine ⟨List.suffix_rfl, fun z z' t' v' r' hz ha hlt hpast h' => ?_⟩
          obtain ⟨u', rfl, hinside⟩ := ha.cons_left (by decide)
          have hmark' := (hyphen_mark_iff hz (hinside.skip hz (hpast u rfl))).2 hmark
          rw [Gives, rangeRest, if_pos hmark'] at h'
          obtain ⟨d', hd', h'⟩ := bind_eq_ok.1 h'
          rw [hd] at hd'
          cases hd'
          cases pure_eq_ok.1 h'
          exact ⟨rfl, ha⟩
      · next hmark =>
          have hend := reads_rangeEnd h
          refine ⟨(hend.suffix.trans (skip_suffix f u)).trans (List.suffix_cons _ u),
            fun z z' t' v' r' hz ha hlt _ h' => ?_⟩
          obtain ⟨u', rfl, hinside⟩ := ha.cons_left (by decide)
          have hahead := hinside.skip hz (Nat.lt_of_lt_of_le hlt hend.suffix.length_le)
          rw [Gives, rangeRest, if_neg fun hmark' => hmark ((hyphen_mark_iff hz hahead).1 hmark')] at h'
          exact hend.alike hz hahead hlt h'
  · next hnil hhyphen =>
      obtain ⟨d, hd, h⟩ := bind_eq_ok.1 h
      cases pure_eq_ok.1 h
      refine ⟨List.suffix_rfl, fun z z' t' v' r' hz ha hlt _ h' => ?_⟩
      rw [Gives, rangeRest.eq_def] at h'
      split at h'
      · simp at h'
      · next u' =>
          obtain ⟨u, rfl, -⟩ := ha.cons_right hz (by decide)
          exact absurd rfl (hhyphen u)
      · obtain ⟨d', hd', h'⟩ := bind_eq_ok.1 h'
        rw [hd] at hd'
        cases hd'
        cases pure_eq_ok.1 h'
        exact ⟨rfl, ha⟩

theorem ne_look_of_rangeRest {first : Item} {c : CharClass}
    (h : rangeRest f first t = .ok (c, r)) (l : Look) : first ≠ .look l := by
  rw [rangeRest.eq_def] at h
  split at h
  · simp at h
  · split at h
    · obtain ⟨d, hd, -⟩ := bind_eq_ok.1 h
      exact Item.ne_look_of_asClass hd l
    · rw [rangeEnd.eq_def] at h
      split at h
      · simp at h
      · obtain ⟨⟨last, s⟩, -, h⟩ := bind_eq_ok.1 h
        obtain ⟨d, hd, -⟩ := bind_eq_ok.1 h
        exact (rangeOf_eq_ok hd).1 l
  · obtain ⟨d, hd, -⟩ := bind_eq_ok.1 h
    exact Item.ne_look_of_asClass hd l

theorem reads_readClassRange {c : CharClass} (h : readClassRange f t = .ok (c, r)) :
    ReadsPast '-' f (Gives (readClassRange f)) t c r := by
  rw [readClassRange_eq] at h
  obtain ⟨⟨first, s⟩, hfirst, h⟩ := bind_eq_ok.1 h
  have hitem := reads_readClassItem hfirst (ne_look_of_rangeRest h)
  have hrest := reads_rangeRest h
  refine ⟨(hrest.suffix.trans (skip_suffix f s)).trans hitem.suffix,
    fun z z' t' v' r' hz ha hlt hpast h' => ?_⟩
  rw [Gives, readClassRange_eq] at h'
  obtain ⟨⟨first', s'⟩, hfirst', h'⟩ := bind_eq_ok.1 h'
  have hskip := Nat.lt_of_lt_of_le hlt hrest.suffix.length_le
  obtain ⟨rfl, hs⟩ := hitem.alike hz ha
    (Nat.lt_of_lt_of_le hskip (skip_suffix f s).length_le) hfirst'
  exact hrest.alike hz (hs.skip hz hskip) hlt hpast h'

/-- A hyphen at the beginning is an item by itself, and the blanks behind it are gone too. -/
theorem suffix_readClassRange_hyphen {c : CharClass} {u : List Char}
    (h : readClassRange f ('-' :: u) = .ok (c, r)) : r <:+ skip f u := by
  rw [readClassRange_eq] at h
  obtain ⟨⟨first, s⟩, hfirst, h⟩ := bind_eq_ok.1 h
  cases hfirst
  exact (reads_rangeRest h).suffix

/-! ### Named classes -/

theorem close_not_mem_posixName {name : List Char} {c : CharClass}
    (h : posixClass? (String.ofList name) = some c) : ')' ∉ name := by
  have hname : ∃ s : String, name = s.toList ∧ s ∈ ["alnum", "alpha", "ascii", "blank", "cntrl",
      "digit", "graph", "lower", "print", "punct", "space", "upper", "word", "xdigit"] := by
    refine ⟨String.ofList name, by simp, ?_⟩
    unfold posixClass? at h
    split at h
    all_goals simp_all
  obtain ⟨s, rfl, hs⟩ := hname
  clear h
  revert s
  decide

/-- The name of a class with its closing colon and bracket. -/
def posixBody (negated : Bool) (cs : List Char) : Option (CharClass × List Char) :=
  match Text.splitFirst ':' cs with
  | some (name, ']' :: r) =>
    (posixClass? (String.ofList name)).map fun c => (if negated then .compl c else c, r)
  | _ => none

theorem posixName_plain {cs : List Char} (h : ∀ r, cs = '^' :: r → False) :
    posixName ('[' :: ':' :: cs) = posixBody false cs := by
  rw [posixName.eq_2 cs h]
  rfl

theorem posixBody_eq_some {negated : Bool} {c : CharClass} (h : posixBody negated t = some (c, r)) :
    ∃ name, t = name ++ ':' :: ']' :: r ∧ ')' ∉ name ∧
      ∀ s, posixBody negated (name ++ ':' :: ']' :: s) = some (c, s) := by
  rw [posixBody] at h
  split at h
  · next name s hsplit =>
      obtain ⟨rfl, hname⟩ := Text.splitFirst_eq_some.1 hsplit
      obtain ⟨cls, hcls, heq⟩ := Option.map_eq_some_iff.1 h
      cases heq
      refine ⟨name, rfl, close_not_mem_posixName hcls, fun s => ?_⟩
      rw [posixBody, Text.splitFirst_eq_some.2 ⟨rfl, hname⟩]
      simp only [hcls, Option.map_some]
  · simp at h

/-- The text of a named class has no parenthesis, and is one whatever follows it. -/
theorem posixName_eq_some {c : CharClass} (h : posixName t = some (c, r)) :
    ∃ word, t = word ++ r ∧ ')' ∉ word ∧ ∀ s, posixName (word ++ s) = some (c, s) := by
  by_cases hopen : ∃ u, t = '[' :: ':' :: u
  · obtain ⟨u, rfl⟩ := hopen
    by_cases hcaret : ∃ v, u = '^' :: v
    · obtain ⟨v, rfl⟩ := hcaret
      obtain ⟨name, rfl, hname, hall⟩ := posixBody_eq_some h
      refine ⟨'[' :: ':' :: '^' :: (name ++ [':', ']']), by simp, by simp [hname], fun s => ?_⟩
      have hword : posixName ('[' :: ':' :: '^' :: (name ++ ':' :: ']' :: s)) = some (c, s) :=
        hall s
      simpa using hword
    · have hplain : ∀ v, u = '^' :: v → False := fun v hv => hcaret ⟨v, hv⟩
      rw [posixName_plain hplain] at h
      obtain ⟨name, rfl, hname, hall⟩ := posixBody_eq_some h
      refine ⟨'[' :: ':' :: (name ++ [':', ']']), by simp, by simp [hname], fun s => ?_⟩
      have hplain' : ∀ v, name ++ ':' :: ']' :: s = '^' :: v → False := by
        intro v hv
        cases name with
        | nil => cases hv
        | cons d name =>
            obtain ⟨rfl, -⟩ := List.cons.inj hv
            exact hplain _ rfl
      simpa [posixName_plain hplain'] using hall s
  · rw [posixName.eq_def] at h
    split at h
    · exact absurd ⟨_, rfl⟩ hopen
    · simp at h

theorem alike_posixName {c : CharClass} (ha : Ahead z z' t t') (h : posixName t = some (c, r)) :
    ∃ r', posixName t' = some (c, r') ∧ Ahead z z' r r' := by
  obtain ⟨word, rfl, hword, hall⟩ := posixName_eq_some h
  obtain ⟨r', rfl, hr⟩ := ha.append_left word hword
  exact ⟨r', hall r', hr⟩

theorem posixName_eq_none (hz : Stop z') (ha : Ahead z z' t t') (h : posixName t = none) :
    posixName t' = none := by
  cases h' : posixName t' with
  | none => rfl
  | some x =>
      obtain ⟨word, rfl, hword, hall⟩ := posixName_eq_some h'
      obtain ⟨r, rfl, -⟩ := ha.append_right word hz hword
      rw [hall r] at h
      cases h

/-! ### The beginning of a class -/

theorem reads_leadingHyphens {b b' : Bracket} (h : leadingHyphens f n b t = (b', r))
    (hn : t.length ≤ n) :
    Reads (fun t x => ∃ m, t.length ≤ m ∧ leadingHyphens f m b t = x) t b' r := by
  induction n generalizing b t with
  | zero =>
      have hnil : t = [] := List.length_eq_zero_iff.1 (Nat.le_zero.1 hn)
      subst hnil
      cases h
      exact ⟨List.suffix_rfl, nofun⟩
  | succ n ih =>
      by_cases hhyphen : ∃ u, t = '-' :: u
      · obtain ⟨u, rfl⟩ := hhyphen
        have hshort := (skip_suffix f u).length_le
        have hskip : Reads (fun t x => ∃ m, (skip f t).length ≤ m ∧
            leadingHyphens f m (b.add (.single '-')) (skip f t) = x) u b' r :=
          (ih h (by simp at hn; omega)).skip fun _ _ => id
        refine hskip.cons fun t' x ⟨m, hm, hx⟩ => ?_
        cases m with
        | zero => simp at hm
        | succ m =>
            have hshort' := (skip_suffix f t').length_le
            exact ⟨m, by simp at hm; omega, hx⟩
      · have hother : ∀ {m} {u : List Char}, (∀ v, u = '-' :: v → False) →
            leadingHyphens f m b u = (b, u) := by
          intro m u hu
          rw [leadingHyphens.eq_def]
          split
          · exact absurd rfl (hu _)
          · rfl
        rw [hother fun u hu => hhyphen ⟨u, hu⟩] at h
        cases h
        refine ⟨List.suffix_rfl, fun z z' t' v' r' hz ha hlt ⟨m, _, hx⟩ => ?_⟩
        have hhyphen' : ∀ v, t' = '-' :: v → False := by
          rintro v rfl
          obtain ⟨u, rfl, -⟩ := ha.cons_right hz (by decide)
          exact hhyphen ⟨u, rfl⟩
        rw [hother hhyphen'] at hx
        cases hx
        exact ⟨rfl, ha⟩

/-- A class behind its caret or its missing one. -/
def openBody (f : Flags) (negated : Bool) : List Char → Bool × Bracket × List Char
  | ']' :: r => (negated, (Bracket.mk none .none).add (.single ']'), skip f r)
  | r => (negated, leadingHyphens f r.length ⟨none, .none⟩ r)

/-- What stands behind an opening bracket, without the blanks there. -/
def openRest (f : Flags) : List Char → Bool × Bracket × List Char
  | '^' :: r => openBody f true (skip f r)
  | r => openBody f false r

theorem openBracket_eq (f : Flags) (cs : List Char) : openBracket f cs = openRest f (skip f cs) := by
  rw [openBracket]
  generalize skip f cs = u
  split
  · next negated v heq =>
      split at heq
      · cases heq
        exact (openBody.eq_def f true _).symm
      · next hcaret =>
          cases heq
          rw [openRest.eq_2 f _ hcaret]
          exact (openBody.eq_def f false _).symm

/-- The outcome of a reader that never fails, its value in two parts. -/
abbrev Leaves {α β : Type} (F : List Char → α × β × List Char) (t : List Char)
    (x : (α × β) × List Char) : Prop :=
  F t = (x.1.1, x.1.2, x.2)

theorem reads_openBody {negated negated' : Bool} {b : Bracket}
    (h : openBody f negated t = (negated', b, r)) :
    Reads (Leaves (openBody f negated)) t (negated', b) r := by
  rw [openBody.eq_def] at h
  split at h
  · next u =>
      cases h
      have hskip := Reads.skipped (negated, (Bracket.mk none .none).add (.single ']')) f u
      refine hskip.cons fun t' ⟨⟨x, y⟩, s⟩ hx => ?_
      cases hx
      rfl
  · next hclose =>
      obtain ⟨rfl, hlead⟩ := Prod.mk.inj h
      have hread := reads_leadingHyphens hlead (Nat.le_refl _)
      refine ⟨hread.suffix, fun z z' t' ⟨x, y⟩ r' hz ha hlt hx => ?_⟩
      have hclose' : ∀ v, t' = ']' :: v → False := by
        rintro v rfl
        obtain ⟨u, rfl, -⟩ := ha.cons_right hz (by decide)
        exact hclose u rfl
      rw [Leaves, openBody.eq_2 f negated t' hclose'] at hx
      obtain ⟨rfl, hx⟩ := Prod.mk.inj hx
      obtain ⟨rfl, hr⟩ := hread.alike hz ha hlt ⟨_, Nat.le_refl _, hx⟩
      exact ⟨rfl, hr⟩

theorem reads_openRest {negated : Bool} {b : Bracket} (h : openRest f t = (negated, b, r)) :
    Reads (Leaves (openRest f)) t (negated, b) r := by
  rw [openRest.eq_def] at h
  split at h
  · next u =>
      have hskip : Reads (fun t x => Leaves (openBody f true) (skip f t) x) u (negated, b) r :=
        (reads_openBody h).skip fun _ _ => id
      exact hskip.cons fun _ _ => id
  · next hcaret =>
      refine (reads_openBody h).mono fun z z' t' x hz ha hx => ?_
      have hcaret' : ∀ v, t' = '^' :: v → False := by
        rintro v rfl
        obtain ⟨u, rfl, -⟩ := ha.cons_right hz (by decide)
        exact hcaret u rfl
      rwa [Leaves, openRest.eq_2 f t' hcaret'] at hx

theorem reads_openBracket {negated : Bool} {b : Bracket} (h : openBracket f t = (negated, b, r)) :
    Reads (Leaves (openBracket f)) t (negated, b) r := by
  rw [openBracket_eq] at h
  refine (reads_openRest h).skip fun t' x hx => ?_
  rwa [Leaves, openBracket_eq] at hx

/-! ### Whole classes -/

def bracketEnd (f : Flags) (negated : Bool) (b : Bracket) : Result CharClass :=
  if negated && !f.unicode then .error .notText
  else
    let c := withCase f (b.closed f)
    .ok (if negated then .compl c else c)

/-- One step within brackets, without blanks in front. -/
def bracketStep (f : Flags) (negated : Bool) (n : Nat) (b : Bracket) :
    List Char → Result (CharClass × List Char)
  | [] => .error .unclosedClass
  | ']' :: r => (bracketEnd f negated b).map fun c => (c, r)
  | '[' :: r =>
    match posixName ('[' :: r) with
    | some (c, r) => readBracket f negated n (b.add c) r
    | none => do
      let (inner, start, r) := openBracket f r
      let (c, r) ← readBracket f inner n start r
      readBracket f negated n (b.add c) r
  | '&' :: '&' :: r => readBracket f negated n ⟨some (b.closed f, .inter), .none⟩ r
  | '-' :: '-' :: r => readBracket f negated n ⟨some (b.closed f, .diff), .none⟩ r
  | '~' :: '~' :: r => readBracket f negated n ⟨some (b.closed f, .symmDiff), .none⟩ r
  | r => do
    let (c, r) ← readClassRange f r
    readBracket f negated n (b.add c) r

theorem readBracket_succ (negated : Bool) (b : Bracket) (cs : List Char) :
    readBracket f negated (n + 1) b cs = bracketStep f negated n b (skip f cs) := by
  rw [readBracket]
  generalize skip f cs = u
  split
  · rfl
  · rw [bracketStep, bracketEnd]
    split <;> rfl
  · rfl
  · rfl
  · rfl
  · rfl
  · next hnil hclose hopen hinter hdiff hsymm =>
      rw [bracketStep.eq_7 f negated n b u hnil hclose hopen hinter hdiff hsymm]

/-- A reader within brackets, which takes up the blanks behind a hyphen together with it. -/
structure ReadsBracket (f : Flags) (R : List Char → CharClass × List Char → Prop)
    (t : List Char) (c : CharClass) (r : List Char) : Prop where
  reads : Reads R t c r
  hyphen : ∀ u, t = '-' :: u → r.length ≤ (skip f u).length

section Step

variable {negated : Bool} {b : Bracket} {c : CharClass}

theorem reads_nested {inner : Bool} {start : Bracket} {d : CharClass} {s s' : List Char}
    (hopen : openBracket f t = (inner, start, s))
    (hinner : Reads (fun t x => ∃ m, readBracket f inner m start t = .ok x) s d s')
    (houter : Reads (fun t x => ∃ m, readBracket f negated m (b.add d) t = .ok x) s' c r) :
    Reads (fun t x => ∃ m inner start s, openBracket f t = (inner, start, s) ∧
      ∃ d s', readBracket f inner m start s = .ok (d, s') ∧
        readBracket f negated m (b.add d) s' = .ok x) t c r := by
  have hboth : Reads (fun t x => ∃ m d s', readBracket f inner m start t = .ok (d, s') ∧
      readBracket f negated m (b.add d) s' = .ok x) s c r := by
    refine hinner.bind houter fun t' x ⟨m, d', s', hd, hx⟩ => ⟨d', s', ⟨m, hd⟩, ?_⟩
    rintro rfl
    exact ⟨m, hx⟩
  refine (reads_openBracket hopen).bind hboth ?_
  intro t' x ⟨m, inner', start', s', hopen', d', s'', hd, hx⟩
  refine ⟨(inner', start'), s', hopen', ?_⟩
  rintro ⟨⟩
  exact ⟨m, d', s'', hd, hx⟩

/-- A step over a range is one in the other text as well, unless that ends here. -/
theorem bracketStep_range {m : Nat} (hz : Stop z') (ha : Ahead z z' t t') (hnil : t' ≠ [])
    (hclose : ∀ u, t = ']' :: u → False) (hopen : ∀ u, t = '[' :: u → False)
    (hinter : ∀ u, t = '&' :: '&' :: u → False) (hdiff : ∀ u, t = '-' :: '-' :: u → False)
    (hsymm : ∀ u, t = '~' :: '~' :: u → False) :
    bracketStep f negated m b t' =
      readClassRange f t' >>= fun (c, r) => readBracket f negated m (b.add c) r := by
  -- What the second text begins with, the first one begins with as well.
  rw [bracketStep.eq_def]
  split
  · exact absurd rfl hnil
  · next u =>
      obtain ⟨v, rfl, -⟩ := ha.append_right [']'] hz (by decide)
      exact absurd rfl (hclose v)
  · next u =>
      obtain ⟨v, rfl, -⟩ := ha.append_right ['['] hz (by decide)
      exact absurd rfl (hopen v)
  · next u =>
      obtain ⟨v, rfl, -⟩ := ha.append_right ['&', '&'] hz (by decide)
      exact absurd rfl (hinter v)
  · next u =>
      obtain ⟨v, rfl, -⟩ := ha.append_right ['-', '-'] hz (by decide)
      exact absurd rfl (hdiff v)
  · next u =>
      obtain ⟨v, rfl, -⟩ := ha.append_right ['~', '~'] hz (by decide)
      exact absurd rfl (hsymm v)
  · rfl

theorem reads_bracketStep
    (ih : ∀ {negated b t c r}, readBracket f negated n b t = .ok (c, r) →
      ReadsBracket f (fun t x => ∃ m, readBracket f negated m b t = .ok x) t c r)
    (h : bracketStep f negated n b t = .ok (c, r)) :
    ReadsBracket f (fun t x => ∃ m, bracketStep f negated m b t = .ok x) t c r := by
  rw [bracketStep.eq_def] at h
  split at h
  · simp at h
  · next u =>
      obtain ⟨d, hd, h⟩ := map_eq_ok.1 h
      cases h
      refine ⟨?_, nofun⟩
      refine (Reads.kept c r).cons fun t' x ⟨m, hx⟩ => ?_
      rw [bracketStep, hd] at hx
      cases hx
      rfl
  · next u =>
      refine ⟨?_, nofun⟩
      split at h
      · next d s hposix =>
          obtain ⟨word, hword, -, -⟩ := posixName_eq_some hposix
          have hrest := (ih h).reads
          refine ⟨hrest.suffix.trans (hword ▸ List.suffix_append word s),
            fun z z' t' v' r' hz ha hlt ⟨m, hx⟩ => ?_⟩
          obtain ⟨s', hposix', hs⟩ := alike_posixName ha hposix
          obtain ⟨u', rfl, -⟩ := ha.cons_left (by decide)
          rw [bracketStep, hposix'] at hx
          exact hrest.alike hz hs hlt ⟨m, hx⟩
      · next hposix =>
          obtain ⟨inner, start, s, hopen⟩ :
              ∃ inner start s, openBracket f u = (inner, start, s) := ⟨_, _, _, rfl⟩
          rw [hopen] at h
          obtain ⟨⟨d, s'⟩, hd, h⟩ := bind_eq_ok.1 h
          have hnested := reads_nested hopen (ih hd).reads (ih h).reads
          refine (hnested.cons (R := fun t x => posixName t = none ∧
            ∃ m, bracketStep f negated m b t = .ok x) fun t' x ⟨hnone, m, hx⟩ => ?_).mono
              fun z z' t' x hz ha hx => ⟨posixName_eq_none hz ha hposix, hx⟩
          rw [bracketStep, hnone] at hx
          obtain ⟨⟨d', s''⟩, hd', hx⟩ := bind_eq_ok.1 hx
          exact ⟨m, _, _, _, rfl, d', s'', hd', hx⟩
  · refine ⟨?_, nofun⟩
    exact (ih h).reads.append ['&', '&'] fun t' x => id
  · next u =>
      have hrest := (ih h).reads
      refine ⟨hrest.append ['-', '-'] fun t' x => id, ?_⟩
      rintro v ⟨⟩
      rw [skip_cons (by decide) (by decide)]
      exact (hrest.suffix.trans (List.suffix_cons '-' u)).length_le
  · refine ⟨?_, nofun⟩
    exact (ih h).reads.append ['~', '~'] fun t' x => id
  · next hnil hclose hopen hinter hdiff hsymm =>
      obtain ⟨⟨d, s⟩, hrange, h⟩ := bind_eq_ok.1 h
      have hrest := ih h
      refine ⟨?_, ?_⟩
      · have hboth : Reads (fun t x => ∃ m d s, readClassRange f t = .ok (d, s) ∧
            readBracket f negated m (b.add d) s = .ok x) t c r := by
          refine (reads_readClassRange hrange).bind hrest.reads hrest.hyphen ?_
          rintro t' x ⟨m, d', s', hd, hx⟩
          refine ⟨d', s', hd, ?_⟩
          rintro rfl
          exact ⟨m, hx⟩
        refine hboth.mono fun z z' t' x hz ha ⟨m, hx⟩ => ?_
        have hnil' : t' ≠ [] := by
          rintro rfl
          cases hx
        rw [bracketStep_range hz ha hnil' hclose hopen hinter hdiff hsymm] at hx
        obtain ⟨⟨d', s'⟩, hd', hx⟩ := bind_eq_ok.1 hx
        exact ⟨m, d', s', hd', hx⟩
      · rintro u rfl
        have hshort := (suffix_readClassRange_hyphen hrange).length_le
        exact Nat.le_trans hrest.reads.suffix.length_le hshort

theorem reads_readBracket (h : readBracket f negated n b t = .ok (c, r)) :
    ReadsBracket f (fun t x => ∃ m, readBracket f negated m b t = .ok x) t c r := by
  induction n generalizing negated b t c r with
  | zero => simp [readBracket] at h
  | succ n ih =>
      rw [readBracket_succ] at h
      have hstep := reads_bracketStep ih h
      refine ⟨hstep.reads.skip fun t' x ⟨m, hx⟩ => ?_, fun u hu => ?_⟩
      · cases m with
        | zero => simp [readBracket] at hx
        | succ m =>
            rw [readBracket_succ] at hx
            exact ⟨m, hx⟩
      · subst hu
        exact hstep.hyphen u (skip_cons (by decide) (by decide))

theorem reads_readClass (h : readClass f t = .ok (c, r)) : Reads (Gives (readClass f)) t c r := by
  rw [readClass] at h
  obtain ⟨inner, start, s, hopen⟩ :
      ∃ inner start s, openBracket f t = (inner, start, s) := ⟨_, _, _, rfl⟩
  rw [hopen] at h
  refine (reads_openBracket hopen).bind (reads_readBracket h).reads fun t' x hx => ?_
  obtain ⟨inner', start', s', hopen'⟩ :
      ∃ inner start s, openBracket f t' = (inner, start, s) := ⟨_, _, _, rfl⟩
  rw [Gives, readClass, hopen'] at hx
  refine ⟨(inner', start'), s', hopen', ?_⟩
  rintro ⟨⟩
  exact ⟨_, hx⟩

end Step

end RouteEngine.Regex
