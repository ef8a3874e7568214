import RouteEngine.Proofs.Regex.Units

/-!
Readers persist. A reader that went from a text to its rest comes to an end, too, when the text
goes on differently behind a closing parenthesis in the rest, or ends there. What it reads is then
the same, for it looks no further than it reads (`Persists.exists_rest`). Two readers look behind
a character that they may leave: they persist as long as what stands there allows for it.
-/

namespace RouteEngine.Regex

open Outcome

variable {α β : Type} {z z' t t' r r' s : List Char} {f : Flags} {n : Nat}

/-- Whatever follows a parenthesis in the rest `r` of `t`, something is read. -/
def Persists (R : List Char → α × List Char → Prop) (t r : List Char) : Prop :=
  ∀ ⦃z z' t'⦄, Stop z' → Ahead z z' t t' → z.length < r.length → ∃ x, R t' x

/-- The same of a reader that may leave a brace, if behind the blanks there something else than a
closing parenthesis follows. -/
def PersistsPast (f : Flags) (R : List Char → α × List Char → Prop) (t r : List Char) : Prop :=
  ∀ ⦃z z' t'⦄, Stop z' → Ahead z z' t t' → z.length < r.length →
    (∀ u, r = '\x7b' :: u → z.length < (skip f u).length ∧ (skip f u).head? ≠ some ')') →
    ∃ x, R t' x

/-- The same of a reader between brackets, which may leave a hyphen and looks for something behind
it; in front of the parenthesis something else follows, for there is a closing bracket. -/
def PersistsInside (f : Flags) (R : List Char → α × List Char → Prop) (t r : List Char) : Prop :=
  ∀ ⦃z z' t'⦄, Stop z' → Ahead z z' t t' → z.length + 1 < r.length →
    (∀ u, r = '-' :: u → z.length < (skip f u).length) → ∃ x, R t' x

namespace Persists

variable {R K : List Char → α × List Char → Prop} {S T : List Char → β × List Char → Prop}
  {v : α} {w : β}

/-- What a persisting reader reads is the same. -/
theorem exists_rest (h : Persists S t s) (hT : Reads T t w s) (hS : ∀ t' x, S t' x → T t' x)
    (hz : Stop z') (ha : Ahead z z' t t') (hlt : z.length < s.length) :
    ∃ s', S t' (w, s') ∧ Ahead z z' s s' := by
  obtain ⟨⟨w', s'⟩, hx⟩ := h hz ha hlt
  obtain ⟨rfl, hs⟩ := hT.alike hz ha hlt (hS _ _ hx)
  exact ⟨s', hx, hs⟩

theorem of_forall (h : ∀ t', ∃ x, R t' x) : Persists R t r := fun _ _ t' _ _ _ => h t'

theorem mono (h : Persists K t r)
    (hR : ∀ z z' t' x, Stop z' → Ahead z z' t t' → K t' x → R t' x) : Persists R t r := by
  intro z z' t' hz ha hlt
  obtain ⟨x, hx⟩ := h hz ha hlt
  exact ⟨x, hR _ _ _ _ hz ha hx⟩

theorem append (word : List Char) (h : Persists K t r) (hr : r <:+ t)
    (hR : ∀ t' x, K t' x → R (word ++ t') x) : Persists R (word ++ t) r := by
  intro z z' u hz ha hlt
  obtain ⟨t', rfl, hahead⟩ := ha.append_of_length_lt word (Nat.lt_of_lt_of_le hlt hr.length_le)
  obtain ⟨x, hx⟩ := h hz hahead hlt
  exact ⟨x, hR _ _ hx⟩

theorem cons {c : Char} (h : Persists K t r) (hr : r <:+ t) (hR : ∀ t' x, K t' x → R (c :: t') x) :
    Persists R (c :: t) r :=
  h.append [c] hr hR

theorem skip (h : Persists K (skip f t) r) (hr : r <:+ Regex.skip f t)
    (hR : ∀ t' x, K (Regex.skip f t') x → R t' x) : Persists R t r := by
  intro z z' t' hz ha hlt
  obtain ⟨x, hx⟩ := h hz (ha.skip hz (Nat.lt_of_lt_of_le hlt hr.length_le)) hlt
  exact ⟨x, hR _ _ hx⟩

theorem bind (h : Persists S t s) (hT : Reads T t w s) (hS : ∀ t' x, S t' x → T t' x)
    (hk : Persists K s r) (hr : r <:+ s) (hR : ∀ t' s' x, S t' (w, s') → K s' x → R t' x) :
    Persists R t r := by
  intro z z' t' hz ha hlt
  obtain ⟨s', hx, hs⟩ := h.exists_rest hT hS hz ha (Nat.lt_of_lt_of_le hlt hr.length_le)
  obtain ⟨x, hk⟩ := hk hz hs hlt
  exact ⟨x, hR _ _ _ hx hk⟩

theorem andThen {F : List Char → Result (β × List Char)} {k : β → Result α}
    (h : Persists (Gives F) t r) (hF : Reads (Gives F) t w r) (hk : k w = .ok v) :
    Persists (Gives fun t => do
      let (w, r) ← F t
      let v ← k w
      return (v, r)) t r := by
  intro z z' t' hz ha hlt
  obtain ⟨r', hx, -⟩ := h.exists_rest hF (fun _ _ => id) hz ha hlt
  exact ⟨(v, r'), bind_eq_ok.2 ⟨_, hx, bind_eq_ok.2 ⟨v, hk, rfl⟩⟩⟩

end Persists

theorem Persists.past {R : List Char → α × List Char → Prop} (h : Persists R t r) :
    PersistsPast f R t r :=
  fun _ _ _ hz ha hlt _ => h hz ha hlt

/-! ### Escapes -/

theorem persists_hexDigits {acc v : List Char} (h : hexDigits f n acc t = .ok (v, r)) :
    Persists (Gives (hexDigits f n acc)) t r := by
  induction n generalizing acc t with
  | zero => exact .of_forall fun t' => ⟨_, rfl⟩
  | succ n ih =>
      cases t with
      | nil => simp [hexDigits] at h
      | cons c t =>
          rw [hexDigits] at h
          split at h
          · next hc =>
              have hr := (reads_hexDigits h).suffix
              have hskip : Persists (fun t x => hexDigits f n (c :: acc) (skip f t) = .ok x) t r :=
                (ih h).skip hr fun _ _ => id
              refine hskip.cons (hr.trans (skip_suffix f t)) fun t' x hx => ?_
              rwa [Gives, hexDigits, if_pos hc]
          · simp at h

/-- As much fuel as there are characters is enough for a reader up to a brace. -/
theorem persists_hexBraced {acc v : List Char} (h : hexBraced f n acc t = .ok (v, r)) :
    Persists (fun t x => ∀ m, t.length < m → hexBraced f m acc t = .ok x) t r := by
  induction n generalizing acc t with
  | zero => simp [hexBraced] at h
  | succ n ih =>
      cases t with
      | nil => simp [hexBraced] at h
      | cons c t =>
          rw [hexBraced] at h
          split at h
          · next hc =>
              cases h
              have hend : Persists (fun t x => x = (acc.reverse, skip f t)) t (skip f t) :=
                .of_forall fun t' => ⟨_, rfl⟩
              refine hend.cons (skip_suffix f t) fun t' x hx m hm => ?_
              cases m with
              | zero => cases hm
              | succ m => rw [hexBraced, if_pos hc, hx]
          · next hc =>
              split at h
              · next hdigit =>
                  have hr := (reads_hexBraced h).suffix
                  have hskip : Persists (fun t x => ∀ m, (skip f t).length < m →
                      hexBraced f m (c :: acc) (skip f t) = .ok x) t r :=
                    (ih h).skip hr fun _ _ => id
                  refine hskip.cons (hr.trans (skip_suffix f t)) fun t' x hx m hm => ?_
                  cases m with
                  | zero => cases hm
                  | succ m =>
                      have hshort := (skip_suffix f t').length_le
                      rw [hexBraced, if_neg hc, if_pos hdigit]
                      exact hx m (by simp at hm; omega)
              · simp at h

theorem persists_upToBrace {acc v : List Char} (h : upToBrace f n acc t = .ok (v, r)) :
    Persists (fun t x => ∀ m, t.length < m → upToBrace f m acc t = .ok x) t r := by
  induction n generalizing acc t with
  | zero => simp [upToBrace] at h
  | succ n ih =>
      cases t with
      | nil => simp [upToBrace] at h
      | cons c t =>
          rw [upToBrace] at h
          split at h
          · next hc =>
              cases h
              have hend : Persists (fun t x => x = (acc.reverse, t)) r r :=
                .of_forall fun t' => ⟨_, rfl⟩
              refine hend.cons List.suffix_rfl fun t' x hx m hm => ?_
              cases m with
              | zero => cases hm
              | succ m => rw [upToBrace, if_pos hc, hx]
          · next hc =>
              have hr := (reads_upToBrace h).suffix
              have hskip : Persists (fun t x => ∀ m, (skip f t).length < m →
                  upToBrace f m (c :: acc) (skip f t) = .ok x) t r :=
                (ih h).skip hr fun _ _ => id
              refine hskip.cons (hr.trans (skip_suffix f t)) fun t' x hx m hm => ?_
              cases m with
              | zero => cases hm
              | succ m =>
                  have hshort := (skip_suffix f t').length_le
                  rw [upToBrace, if_neg hc]
                  exact hx m (by simp at hm; omega)

theorem persists_hexText {ds : List Char} (h : hexText f n t = .ok (ds, r)) :
    Persists (Gives (hexText f n)) t r := by
  rw [hexText.eq_def] at h
  split at h
  · next u =>
      have hr := (reads_hexBraced h).suffix
      have hskip : Persists (fun t x => ∀ m, (skip f t).length < m →
          hexBraced f m [] (skip f t) = .ok x) u r := (persists_hexBraced h).skip hr fun _ _ => id
      exact hskip.cons (hr.trans (skip_suffix f u)) fun t' x hx =>
        hx _ (Nat.lt_succ_of_le (skip_suffix f t').length_le)
  · next hbrace =>
      refine (persists_hexDigits h).mono fun z z' t' x hz ha hx => ?_
      have hbrace' : ∀ u, t' = '\x7b' :: u → False := by
        rintro u rfl
        obtain ⟨w, rfl, -⟩ := ha.cons_right hz (by decide)
        exact hbrace w rfl
      rwa [Gives, hexText.eq_2 f n t' hbrace']

theorem persists_readHex {c : Char} (h : readHex f n t = .ok (c, r)) :
    Persists (Gives (readHex f n)) t r := by
  rw [readHex_eq] at h
  obtain ⟨⟨ds, s⟩, hds, h⟩ := bind_eq_ok.1 h
  obtain ⟨d, hd, h⟩ := bind_eq_ok.1 h
  cases pure_eq_ok.1 h
  have hread := reads_hexText hds
  refine ((persists_hexText hds).andThen hread hd).skip hread.suffix fun t' x hx => ?_
  rwa [Gives, readHex_eq]

theorem persists_propertyText {name : List Char} (h : propertyText f t = .ok (name, r)) :
    Persists (Gives (propertyText f)) t r := by
  rw [propertyText.eq_def] at h
  split at h
  · simp at h
  · next u =>
      have hr := (reads_upToBrace h).suffix
      have hskip : Persists (fun t x => ∀ m, (skip f t).length < m →
          upToBrace f m [] (skip f t) = .ok x) u r := (persists_upToBrace h).skip hr fun _ _ => id
      exact hskip.cons (hr.trans (skip_suffix f u)) fun t' x hx =>
        hx _ (Nat.lt_succ_of_le (skip_suffix f t').length_le)
  · next c u hbrace =>
      split at h
      · simp at h
      · next hc =>
          cases h
          have hend : Persists (fun t x => x = ([c], skip f t)) u (skip f u) :=
            .of_forall fun t' => ⟨_, rfl⟩
          refine hend.cons (skip_suffix f u) fun t' x hx => ?_
          rw [Gives, propertyText.eq_3 f c t' hbrace, if_neg hc, hx]

theorem persists_readProperty {negated : Bool} {i : Item}
    (h : readProperty f negated t = .ok (i, r)) : Persists (Gives (readProperty f negated)) t r := by
  rw [readProperty_eq] at h
  obtain ⟨⟨name, s⟩, hname, h⟩ := bind_eq_ok.1 h
  obtain ⟨j, hj, h⟩ := bind_eq_ok.1 h
  cases pure_eq_ok.1 h
  have hread := reads_propertyText hname
  refine ((persists_propertyText hname).andThen hread hj).skip hread.suffix fun t' x hx => ?_
  rwa [Gives, readProperty_eq]

theorem persists_boundaryName {acc v : List Char}
    (h : boundaryName f n acc t = (v, '\x7d' :: r)) :
    Persists (fun t x => ∀ m, t.length ≤ m → boundaryName f m acc t = (x.1, '\x7d' :: x.2)) t r := by
  have hend : ∀ {acc u : List Char}, Persists (fun t x => ∀ m, t.length ≤ m →
      boundaryName f m acc t = (x.1, '\x7d' :: x.2)) ('\x7d' :: u) u := by
    intro acc u
    have hkept : Persists (fun t x => x = (acc.reverse, t)) u u := .of_forall fun t' => ⟨_, rfl⟩
    refine hkept.cons List.suffix_rfl ?_
    rintro t' x rfl m -
    cases m <;> rfl
  induction n generalizing acc t with
  | zero =>
      cases h
      exact hend
  | succ n ih =>
      cases t with
      | nil => simp [boundaryName] at h
      | cons c t =>
          rw [boundaryName] at h
          split at h
          · next hc =>
              have hr := (reads_boundaryName h).suffix
              have hskip : Persists (fun t x => ∀ m, (skip f t).length ≤ m →
                  boundaryName f m (c :: acc) (skip f t) = (x.1, '\x7d' :: x.2)) t r :=
                (ih h).skip hr fun _ _ => id
              refine hskip.cons (hr.trans (skip_suffix f t)) fun t' x hx m hm => ?_
              cases m with
              | zero => cases hm
              | succ m =>
                  have hshort := (skip_suffix f t').length_le
                  rw [boundaryName, if_pos hc]
                  exact hx m (by simp at hm; omega)
          · cases h
            exact hend

/-- A boundary without a name that leaves a brace persists if the brace does not end the group. -/
theorem persists_readBoundary {i : Item} (h : readBoundary f t = .ok (i, r)) :
    PersistsPast f (Gives (readBoundary f)) t r := by
  intro z z' t' hz ha hlt hbrace
  obtain ⟨rfl, rfl⟩ | ⟨u, c, s, name, rfl, hskip, hc, hname, hitem⟩ := readBoundary_cases h
  · change ∃ x, readBoundary f t' = .ok x
    rw [readBoundary.eq_def]
    split
    · next u' =>
        obtain ⟨u, rfl, hinside⟩ := ha.cons_right hz (by decide)
        obtain ⟨hlong, hclose⟩ := hbrace u rfl
        have hahead := hinside.skip hz hlong
        cases hskip : skip f u with
        | nil => simp [hskip] at hlong
        | cons c s =>
            rw [hskip] at hahead hclose
            obtain ⟨s', hskip', -⟩ := hahead.cons_left fun hc => hclose (congrArg some hc)
            rw [hskip']
            simp only [if_neg (not_isBoundaryChar_of_plain h hskip)]
            exact ⟨_, rfl⟩
    · exact ⟨_, rfl⟩
  · have hread := reads_boundaryName hname
    have hsuffix := hread.suffix
    rw [← hskip] at hsuffix
    have hclose : c ≠ ')' := by
      rintro rfl
      exact absurd hc (by decide)
    obtain ⟨u', rfl, hinside⟩ := ha.cons_left (by decide)
    have hahead := hinside.skip hz (Nat.lt_of_lt_of_le hlt hsuffix.length_le)
    rw [hskip] at hahead
    obtain ⟨s', hskip', -⟩ := hahead.cons_left hclose
    rw [hskip'] at hahead
    obtain ⟨r', hname', -⟩ := (persists_boundaryName hname).exists_rest hread
      (fun t' x hx => ⟨_, hx _ (Nat.le_refl _)⟩) hz hahead hlt
    refine ⟨(i, r'), ?_⟩
    rw [Gives, readBoundary_named hskip' hc, hname' (s'.length + 1) (Nat.le_refl _)]
    exact bind_eq_ok.2 ⟨i, hitem, rfl⟩

theorem persists_perlItem {negated : Bool} {cls : CharClass} {i : Item}
    (h : perlItem f negated cls t = .ok (i, r)) : Persists (Gives (perlItem f negated cls)) t r := by
  rw [perlItem] at h
  split at h
  · simp at h
  · next hunicode =>
      refine .of_forall fun t' => ⟨(.cls (if negated then .compl cls else cls), t'), ?_⟩
      rw [Gives, perlItem, if_neg hunicode]

theorem persists_literal {i : Item}
    (h : (do let (ch, r) ← readHex f n t; return (Item.literal ch, r)) = .ok (i, r)) :
    Persists (Gives fun t => do let (ch, r) ← readHex f n t; return (Item.literal ch, r)) t r := by
  obtain ⟨⟨ch, s⟩, hch, h⟩ := bind_eq_ok.1 h
  cases pure_eq_ok.1 h
  exact (persists_readHex hch).andThen (reads_readHex hch) (k := fun ch => .ok (Item.literal ch))
    rfl

theorem persists_readEscape {i : Item} (h : readEscape f t = .ok (i, r))
    (hb : t.head? ≠ some 'b') : Persists (Gives (readEscape f)) t r := by
  rw [readEscape.eq_def] at h
  split at h
  · simp at h
  · next c u =>
      split at h
      any_goals exact (persists_literal h).cons (reads_literal h).suffix fun t' x => id
      any_goals exact (persists_readProperty h).cons (reads_readProperty h).suffix fun t' x => id
      any_goals exact (persists_perlItem h).cons (reads_perlItem h).suffix fun t' x => id
      any_goals exact absurd rfl hb
      any_goals
        cases h
        exact Persists.cons (.of_forall fun t' => ⟨(_, t'), rfl⟩) List.suffix_rfl
          (K := fun t' x => x = (_, t')) fun t' x hx => hx ▸ rfl
      -- Any other character stands for itself, whatever follows it.
      split at h
      · simp at h
      · next hdigit =>
          split at h
          · next hescapable =>
              cases h
              refine Persists.cons (K := fun t' x => x = (.literal c, t'))
                (.of_forall fun t' => ⟨_, rfl⟩) List.suffix_rfl fun t' x hx => ?_
              subst hx
              rw [Gives, readEscape.eq_def]
              simp only
              split <;> simp_all
          · simp at h

/-! ### Classes -/

theorem persists_readClassItem {i : Item} (h : readClassItem f t = .ok (i, r))
    (hi : ∀ l, i ≠ .look l) : Persists (Gives (readClassItem f)) t r := by
  rw [readClassItem.eq_def] at h
  split at h
  · simp at h
  · next u =>
      have hb : u.head? ≠ some 'b' := by
        intro hhead
        obtain ⟨v, rfl⟩ := List.head?_eq_some_iff.1 hhead
        obtain ⟨l, rfl⟩ := isLook_of_readBoundary h
        exact hi l rfl
      exact (persists_readEscape h hb).cons (reads_readEscape h hb).suffix fun t' x => id
  · next c u hc =>
      cases h
      refine Persists.cons (K := fun t' x => x = (.literal c, t'))
        (.of_forall fun t' => ⟨_, rfl⟩) List.suffix_rfl fun t' x hx => ?_
      rw [Gives, readClassItem.eq_3 f c t' hc, hx]

theorem persists_rangeEnd {first : Item} {c : CharClass} (h : rangeEnd f first t = .ok (c, r)) :
    Persists (Gives (rangeEnd f first)) t r := by
  rw [rangeEnd.eq_def] at h
  split at h
  · simp at h
  · next hnil =>
      obtain ⟨⟨last, s⟩, hlast, h⟩ := bind_eq_ok.1 h
      obtain ⟨d, hd, h⟩ := bind_eq_ok.1 h
      cases pure_eq_ok.1 h
      have hlook := (rangeOf_eq_ok hd).2
      refine ((persists_readClassItem hlast hlook).andThen (reads_readClassItem hlast hlook) hd).mono
        fun z z' t' x hz ha hx => ?_
      cases t' with
      | nil =>
          obtain ⟨_, hitem, -⟩ := bind_eq_ok.1 hx
          cases hitem
      | cons e t' => exact hx

theorem persists_rangeRest {first : Item} {c : CharClass} (h : rangeRest f first t = .ok (c, r)) :
    PersistsInside f (Gives (rangeRest f first)) t r := by
  intro z z' t' hz ha hlt hpast
  rw [rangeRest.eq_def] at h
  split at h
  · simp at h
  · next u =>
      obtain ⟨u', rfl, hinside⟩ := ha.cons_left (by decide)
      split at h
      · next hmark =>
          obtain ⟨d, hd, h⟩ := bind_eq_ok.1 h
          cases pure_eq_ok.1 h
          have hmark' := (hyphen_mark_iff hz (hinside.skip hz (hpast u rfl))).2 hmark
          refine ⟨(c, '-' :: u'), ?_⟩
          rw [Gives, rangeRest, if_pos hmark', hd]
          rfl
      · next hmark =>
          have hlt' : z.length < r.length := by omega
          have hahead := hinside.skip hz (Nat.lt_of_lt_of_le hlt' (reads_rangeEnd h).suffix.length_le)
          obtain ⟨x, hx⟩ := persists_rangeEnd h hz hahead hlt'
          refine ⟨x, ?_⟩
          rwa [Gives, rangeRest, if_neg fun hmark' => hmark ((hyphen_mark_iff hz hahead).1 hmark')]
  · next hnil hhyphen =>
      obtain ⟨d, hd, h⟩ := bind_eq_ok.1 h
      cases pure_eq_ok.1 h
      cases ha with
      | here => simp at hlt
      | @cons e w w' hw =>
          have hhyphen' : ∀ v, e :: w' = '-' :: v → False := by
            intro v hv
            cases hv
            exact hhyphen w rfl
          refine ⟨(c, e :: w'), ?_⟩
          rw [Gives, rangeRest.eq_3 f first (e :: w') (List.cons_ne_nil e w') hhyphen', hd]
          rfl

theorem persists_readClassRange {c : CharClass} (h : readClassRange f t = .ok (c, r)) :
    PersistsInside f (Gives (readClassRange f)) t r := by
  rw [readClassRange_eq] at h
  obtain ⟨⟨first, s⟩, hfirst, h⟩ := bind_eq_ok.1 h
  intro z z' t' hz ha hlt hpast
  have hlook := ne_look_of_rangeRest h
  have hskip : z.length < (skip f s).length := by
    have := (reads_rangeRest h).suffix.length_le
    omega
  obtain ⟨s', hs', hahead⟩ := (persists_readClassItem hfirst hlook).exists_rest
    (reads_readClassItem hfirst hlook) (fun _ _ => id) hz ha
    (Nat.lt_of_lt_of_le hskip (skip_suffix f s).length_le)
  obtain ⟨x, hx⟩ := persists_rangeRest h hz (hahead.skip hz hskip) hlt hpast
  refine ⟨x, ?_⟩
  rw [Gives, readClassRange_eq]
  exact bind_eq_ok.2 ⟨_, hs', hx⟩

theorem length_lt_of_readClassRange {c : CharClass} (h : readClassRange f t = .ok (c, r)) :
    r.length < t.length := by
  rw [readClassRange_eq] at h
  obtain ⟨⟨first, s⟩, hfirst, h⟩ := bind_eq_ok.1 h
  have hrest := ((reads_rangeRest h).suffix.trans (skip_suffix f s)).length_le
  rw [readClassItem.eq_def] at hfirst
  split at hfirst
  · simp at hfirst
  · next u =>
      have hshort := (reads_escape hfirst).suffix.length_le
      rw [List.length_cons]
      omega
  · cases hfirst
    exact Nat.lt_succ_of_le hrest

/-- A class has a closing bracket. -/
theorem length_lt_of_readBracket {negated : Bool} {b : Bracket} {c : CharClass}
    (h : readBracket f negated n b t = .ok (c, r)) : r.length < t.length := by
  induction n generalizing negated b t c r with
  | zero => simp [readBracket] at h
  | succ n ih =>
      rw [readBracket_succ] at h
      refine Nat.lt_of_lt_of_le ?_ (skip_suffix f t).length_le
      generalize skip f t = w at h
      rw [bracketStep.eq_def] at h
      split at h
      · simp at h
      · obtain ⟨d, -, h⟩ := map_eq_ok.1 h
        cases h
        exact Nat.lt_succ_self _
      · next u =>
          split at h
          · next d s hposix =>
              obtain ⟨word, hword, -, -⟩ := posixName_eq_some hposix
              rw [hword, List.length_append]
              exact Nat.lt_of_lt_of_le (ih h) (Nat.le_add_left _ _)
          · obtain ⟨inner, start, s, hopen⟩ :
                ∃ inner start s, openBracket f u = (inner, start, s) := ⟨_, _, _, rfl⟩
            rw [hopen] at h
            obtain ⟨⟨d, s'⟩, hd, h⟩ := bind_eq_ok.1 h
            have hshort := (reads_openBracket hopen).suffix.length_le
            have hinner := ih hd
            have houter := ih h
            rw [List.length_cons]
            omega
      · exact Nat.lt_succ_of_lt (Nat.lt_succ_of_lt (ih h))
      · exact Nat.lt_succ_of_lt (Nat.lt_succ_of_lt (ih h))
      · exact Nat.lt_succ_of_lt (Nat.lt_succ_of_lt (ih h))
      · obtain ⟨⟨d, s⟩, hrange, h⟩ := bind_eq_ok.1 h
        exact Nat.lt_trans (ih h) (length_lt_of_readClassRange hrange)

theorem length_lt_of_posixName {c : CharClass} (h : posixName t = some (c, r)) :
    r.length < t.length := by
  obtain ⟨word, rfl, -, hall⟩ := posixName_eq_some h
  cases word with
  | nil => cases hall []
  | cons d word =>
      simp only [List.length_append, List.length_cons]
      omega

section Step

variable {negated : Bool} {b : Bracket} {c : CharClass}

theorem persists_nested {inner : Bool} {start : Bracket} {d : CharClass} {u s s' : List Char}
    (ih : ∀ {negated b t c r}, readBracket f negated n b t = .ok (c, r) →
      Persists (fun t x => ∀ m, t.length < m → readBracket f negated m b t = .ok x) t r)
    (hposix : posixName ('[' :: u) = none) (hopen : openBracket f u = (inner, start, s))
    (hd : readBracket f inner n start s = .ok (d, s'))
    (h : readBracket f negated n (b.add d) s' = .ok (c, r)) :
    Persists (fun t x => ∀ m, t.length ≤ m → bracketStep f negated m b t = .ok x)
      ('[' :: u) r := by
  intro z z' t' hz ha hlt
  have hltInner := Nat.lt_trans hlt (length_lt_of_readBracket h)
  have hltOpen := Nat.lt_trans hltInner (length_lt_of_readBracket hd)
  obtain ⟨u', rfl, hu⟩ := ha.cons_left (by decide)
  have hstart : Persists (Leaves (openBracket f)) u s := .of_forall fun t' => ⟨((_, _), _), rfl⟩
  obtain ⟨w, hopen', hw⟩ :=
    hstart.exists_rest (reads_openBracket hopen) (fun _ _ => id) hz hu hltOpen
  obtain ⟨w', hd', hw'⟩ := (ih hd).exists_rest (reads_readBracket hd).reads
    (fun t x hx => ⟨_, hx _ (Nat.lt_succ_self _)⟩) hz hw hltInner
  obtain ⟨x, hx⟩ := ih h hz hw' hlt
  refine ⟨x, fun m hm => ?_⟩
  have hshort : w.length ≤ u'.length := (reads_openBracket hopen').suffix.length_le
  have hshort' := length_lt_of_readBracket (hd' _ (Nat.lt_succ_self _))
  rw [List.length_cons] at hm
  rw [bracketStep, posixName_eq_none hz ha hposix]
  simp only [show openBracket f u' = (inner, start, w) from hopen']
  exact bind_eq_ok.2 ⟨_, hd' m (by omega), hx m (by omega)⟩

theorem persists_range {d : CharClass} {s : List Char}
    (ih : ∀ {negated b t c r}, readBracket f negated n b t = .ok (c, r) →
      Persists (fun t x => ∀ m, t.length < m → readBracket f negated m b t = .ok x) t r)
    (hclose : ∀ u, t = ']' :: u → False) (hopen : ∀ u, t = '[' :: u → False)
    (hinter : ∀ u, t = '&' :: '&' :: u → False) (hdiff : ∀ u, t = '-' :: '-' :: u → False)
    (hsymm : ∀ u, t = '~' :: '~' :: u → False) (hrange : readClassRange f t = .ok (d, s))
    (h : readBracket f negated n (b.add d) s = .ok (c, r)) :
    Persists (fun t x => ∀ m, t.length ≤ m → bracketStep f negated m b t = .ok x) t r := by
  intro z z' t' hz ha hlt
  have hrest := length_lt_of_readBracket h
  have hpast : ∀ u, s = '-' :: u → z.length < (skip f u).length := fun u hu =>
    Nat.lt_of_lt_of_le hlt ((reads_readBracket h).hyphen u hu)
  obtain ⟨⟨d', s'⟩, hrange'⟩ := persists_readClassRange hrange hz ha (by omega) hpast
  obtain ⟨rfl, hs⟩ :=
    (reads_readClassRange hrange).alike hz ha (Nat.lt_trans hlt hrest) hpast hrange'
  obtain ⟨x, hx⟩ := ih h hz hs hlt
  refine ⟨x, fun m hm => ?_⟩
  have hshort := length_lt_of_readClassRange hrange'
  have hnil : t' ≠ [] := by
    rintro rfl
    cases hrange'
  rw [bracketStep_range hz ha hnil hclose hopen hinter hdiff hsymm]
  exact bind_eq_ok.2 ⟨_, hrange', hx m (by omega)⟩

theorem persists_bracketStep
    (ih : ∀ {negated b t c r}, readBracket f negated n b t = .ok (c, r) →
      Persists (fun t x => ∀ m, t.length < m → readBracket f negated m b t = .ok x) t r)
    (h : bracketStep f negated n b t = .ok (c, r)) :
    Persists (fun t x => ∀ m, t.length ≤ m → bracketStep f negated m b t = .ok x) t r := by
  -- An operation between classes is a word of two characters.
  have hword : ∀ {b' u} (word : List Char), readBracket f negated n b' u = .ok (c, r) →
      (∀ m t', bracketStep f negated m b (word ++ t') = readBracket f negated m b' t') →
      0 < word.length →
      Persists (fun t x => ∀ m, t.length ≤ m → bracketStep f negated m b t = .ok x)
        (word ++ u) r := by
    intro b' u word h hstep hpos
    refine (ih h).append word (reads_readBracket h).reads.suffix fun t' x hx m hm => ?_
    rw [hstep]
    exact hx m (by simp at hm; omega)
  rw [bracketStep.eq_def] at h
  split at h
  · simp at h
  · next u =>
      obtain ⟨d, hd, h⟩ := map_eq_ok.1 h
      cases h
      refine Persists.cons (K := fun t' x => x = (c, t')) (.of_forall fun t' => ⟨_, rfl⟩)
        List.suffix_rfl fun t' x hx m _ => ?_
      rw [bracketStep, hd, hx]
      rfl
  · next u =>
      split at h
      · next d s hposix =>
          intro z z' t' hz ha hlt
          obtain ⟨s', hposix', hs⟩ := alike_posixName ha hposix
          obtain ⟨u', rfl, -⟩ := ha.cons_left (by decide)
          obtain ⟨x, hx⟩ := ih h hz hs hlt
          refine ⟨x, fun m hm => ?_⟩
          rw [bracketStep, hposix']
          exact hx m (Nat.lt_of_lt_of_le (length_lt_of_posixName hposix') hm)
      · next hposix =>
          obtain ⟨inner, start, s, hopen⟩ :
              ∃ inner start s, openBracket f u = (inner, start, s) := ⟨_, _, _, rfl⟩
          rw [hopen] at h
          obtain ⟨⟨d, s'⟩, hd, h⟩ := bind_eq_ok.1 h
          exact persists_nested ih hposix hopen hd h
  · exact hword ['&', '&'] h (fun _ _ => rfl) (by decide)
  · exact hword ['-', '-'] h (fun _ _ => rfl) (by decide)
  · exact hword ['~', '~'] h (fun _ _ => rfl) (by decide)
  · next hnil hclose hopen hinter hdiff hsymm =>
      obtain ⟨⟨d, s⟩, hrange, h⟩ := bind_eq_ok.1 h
      exact persists_range ih hclose hopen hinter hdiff hsymm hrange h

theorem persists_readBracket (h : readBracket f negated n b t = .ok (c, r)) :
    Persists (fun t x => ∀ m, t.length < m → readBracket f negated m b t = .ok x) t r := by
  induction n generalizing negated b t c r with
  | zero => simp [readBracket] at h
  | succ n ih =>
      rw [readBracket_succ] at h
      refine (persists_bracketStep ih h).skip (reads_bracketStep reads_readBracket h).reads.suffix
        fun t' x hx m hm => ?_
      cases m with
      | zero => cases hm
      | succ m =>
          have hshort := (skip_suffix f t').length_le
          rw [readBracket_succ]
          exact hx m (by omega)

theorem persists_readClass (h : readClass f t = .ok (c, r)) :
    Persists (Gives (readClass f)) t r := by
  rw [readClass] at h
  obtain ⟨inner, start, s, hopen⟩ :
      ∃ inner start s, openBracket f t = (inner, start, s) := ⟨_, _, _, rfl⟩
  rw [hopen] at h
  have hstart : Persists (Leaves (openBracket f)) t s := .of_forall fun t' => ⟨((_, _), _), rfl⟩
  refine hstart.bind (reads_openBracket hopen) (fun _ _ => id) (persists_readBracket h)
    (reads_readBracket h).reads.suffix fun t' s' x hopen' hx => ?_
  rw [Gives, readClass, show openBracket f t' = (inner, start, s') from hopen']
  exact hx _ (Nat.lt_succ_of_le (reads_openBracket hopen').suffix.length_le)

end Step

end RouteEngine.Regex
