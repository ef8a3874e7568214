import RouteEngine.Proofs.Outcome
import RouteEngine.Regex.Parser

/-!
Readers look no further than they read. `Reads R t v r` says of a reader that went from the text
`t` to its rest `r` and read `v`: the rest is the end of the text, and whenever the text goes on
differently behind a closing parenthesis in the rest, or ends there, then `R` reads the same of it
and stops at the same place. It is proved here for what stands between two items of an expression
and for what follows a backslash.
-/

namespace RouteEngine.Regex

open Outcome

/-- The two texts are the same up to a place behind which there are a closing parenthesis and `z`
in the one and `z'` in the other. -/
inductive Ahead (z z' : List Char) : List Char → List Char → Prop
  | here : Ahead z z' (')' :: z) z'
  | cons (c : Char) {t t' : List Char} (h : Ahead z z' t t') : Ahead z z' (c :: t) (c :: t')

/-- The text ends a group: it is empty or begins with a closing parenthesis. -/
def Stop (z : List Char) : Prop := z = [] ∨ ∃ w, z = ')' :: w

variable {α β : Type} {z z' t t' r r' : List Char} {f : Flags} {n : Nat}

theorem Ahead.append (cs : List Char) : Ahead z z' (cs ++ ')' :: z) (cs ++ z') := by
  induction cs with
  | nil => exact .here
  | cons c cs ih => exact .cons c ih

/-- Before the border the texts begin with the same character. -/
theorem Ahead.uncons {c : Char} {u : List Char} (h : Ahead z z' (c :: t) u)
    (hlt : z.length < t.length) : ∃ t', u = c :: t' ∧ Ahead z z' t t' := by
  cases h with
  | here => exact absurd hlt (Nat.lt_irrefl _)
  | cons c h => exact ⟨_, rfl, h⟩

theorem Ahead.cons_left {c : Char} {u : List Char} (h : Ahead z z' (c :: t) u) (hc : c ≠ ')') :
    ∃ t', u = c :: t' ∧ Ahead z z' t t' := by
  cases h with
  | here => exact absurd rfl hc
  | cons c h => exact ⟨_, rfl, h⟩

/-- The same of a word. -/
theorem Ahead.append_of_length_lt (word : List Char) {u : List Char}
    (h : Ahead z z' (word ++ t) u) (hlt : z.length < t.length) :
    ∃ t', u = word ++ t' ∧ Ahead z z' t t' := by
  induction word generalizing u with
  | nil => exact ⟨u, rfl, h⟩
  | cons c word ih =>
      obtain ⟨v, rfl, hv⟩ := h.uncons (by simp; omega)
      obtain ⟨t', rfl, ht⟩ := ih hv
      exact ⟨t', rfl, ht⟩

/-- A character that is no closing parenthesis stands in both texts. -/
theorem Ahead.cons_right {c : Char} (hz : Stop z') (h : Ahead z z' t (c :: t')) (hc : c ≠ ')') :
    ∃ u, t = c :: u ∧ Ahead z z' u t' := by
  cases h with
  | here =>
      rcases hz with hz | ⟨w, hz⟩
      · cases hz
      · cases hz
        exact absurd rfl hc
  | cons c h => exact ⟨_, rfl, h⟩

/-! ### Blanks -/

theorem skipComment_suffix (cs : List Char) : skipComment cs <:+ cs := by
  induction cs with
  | nil => exact List.suffix_rfl
  | cons c cs ih =>
      rw [skipComment]
      split
      · exact List.suffix_cons c cs
      · exact ih.trans (List.suffix_cons c cs)

theorem Ahead.skipComment (h : Ahead z z' t t') (hlt : z.length < (skipComment t).length) :
    Ahead z z' (skipComment t) (Regex.skipComment t') := by
  induction h with
  | here => exact absurd hlt (Nat.not_lt.2 (skipComment_suffix z).length_le)
  | cons c h ih =>
      simp only [Regex.skipComment] at hlt ⊢
      split
      · exact h
      · next hc => exact ih (by rwa [if_neg hc] at hlt)

theorem skipBlanks_suffix (n : Nat) (cs : List Char) : skipBlanks n cs <:+ cs := by
  induction n generalizing cs with
  | zero => exact List.suffix_rfl
  | succ n ih =>
      cases cs with
      | nil => exact List.suffix_rfl
      | cons c cs =>
          rw [skipBlanks]
          split
          · exact (ih cs).trans (List.suffix_cons c cs)
          · split
            · exact ((ih _).trans (skipComment_suffix cs)).trans (List.suffix_cons c cs)
            · exact List.suffix_rfl

theorem skip_suffix (f : Flags) (cs : List Char) : skip f cs <:+ cs := by
  rw [skip]
  split
  · exact skipBlanks_suffix _ cs
  · exact List.suffix_rfl

theorem skip_cons {c : Char} {cs : List Char} (hwhite : Text.isWhite c.toNat = false)
    (hhash : c ≠ '#') : skip f (c :: cs) = c :: cs := by
  rw [skip]
  split
  · simp [skipBlanks, hwhite, hhash]
  · rfl

theorem skipBlanks_stop (hz : Stop z) (n : Nat) : skipBlanks n z = z := by
  cases n with
  | zero => rfl
  | succ n =>
      rcases hz with rfl | ⟨w, rfl⟩
      · rfl
      · rfl

theorem Ahead.skipBlanks {m : Nat} (hz : Stop z') (h : Ahead z z' t t') (hn : t.length ≤ n)
    (hm : t'.length ≤ m) (hlt : z.length < (skipBlanks n t).length) :
    Ahead z z' (skipBlanks n t) (Regex.skipBlanks m t') := by
  induction n generalizing m t t' with
  | zero =>
      have hnil : t = [] := List.length_eq_zero_iff.1 (Nat.le_zero.1 hn)
      subst hnil
      cases h
  | succ n ih =>
      cases h with
      | here =>
          have hstop : Stop (')' :: z) := .inr ⟨z, rfl⟩
          rw [skipBlanks_stop hstop, skipBlanks_stop hz]
          exact .here
      | @cons c t t' h =>
          cases m with
          | zero => simp at hm
          | succ m =>
              rw [List.length_cons, Nat.add_le_add_iff_right] at hn hm
              simp only [Regex.skipBlanks] at hlt ⊢
              split
              · next hwhite =>
                  rw [if_pos hwhite] at hlt
                  exact ih h hn hm hlt
              · next hwhite =>
                  rw [if_neg hwhite] at hlt
                  split
                  · next hhash =>
                      rw [if_pos hhash] at hlt
                      have hle := (skipBlanks_suffix n (Regex.skipComment t)).length_le
                      exact ih (h.skipComment (by omega))
                        (Nat.le_trans (skipComment_suffix t).length_le hn)
                        (Nat.le_trans (skipComment_suffix _).length_le hm) hlt
                  · exact .cons c h

theorem Ahead.skip (hz : Stop z') (h : Ahead z z' t t') (hlt : z.length < (skip f t).length) :
    Ahead z z' (skip f t) (Regex.skip f t') := by
  rw [Regex.skip] at hlt ⊢
  rw [Regex.skip]
  split
  · next hverbose =>
      rw [if_pos hverbose] at hlt
      exact h.skipBlanks hz (Nat.le_refl _) (Nat.le_refl _) hlt
  · exact h

/-! ### Readers -/

/-- A word without closing parentheses stands in both texts, or in neither. -/
theorem Ahead.append_left (word : List Char) {u : List Char} (h : Ahead z z' (word ++ t) u)
    (hword : ')' ∉ word) : ∃ t', u = word ++ t' ∧ Ahead z z' t t' := by
  induction word generalizing u with
  | nil => exact ⟨u, rfl, h⟩
  | cons c word ih =>
      rw [List.mem_cons, not_or] at hword
      obtain ⟨v, rfl, hv⟩ := h.cons_left (Ne.symm hword.1)
      obtain ⟨t', rfl, ht⟩ := ih hv hword.2
      exact ⟨t', rfl, ht⟩

theorem Ahead.append_right (word : List Char) {u : List Char} (hz : Stop z')
    (h : Ahead z z' u (word ++ t')) (hword : ')' ∉ word) : ∃ t, u = word ++ t ∧ Ahead z z' t t' := by
  induction word generalizing u with
  | nil => exact ⟨u, rfl, h⟩
  | cons c word ih =>
      rw [List.mem_cons, not_or] at hword
      obtain ⟨v, rfl, hv⟩ := h.cons_right hz (Ne.symm hword.1)
      obtain ⟨t, rfl, ht⟩ := ih hv hword.2
      exact ⟨t, rfl, ht⟩

theorem Ahead.head?_eq_some_iff {c : Char} (hz : Stop z') (h : Ahead z z' t t') (hc : c ≠ ')') :
    t'.head? = some c ↔ t.head? = some c := by
  cases h with
  | here => rcases hz with rfl | ⟨w, rfl⟩ <;> simp [Ne.symm hc]
  | cons c h => rfl

/-- The rest `r` that a reader leaves of the text `t`, from which it read `v`, is an end of `t`,
and neither changes with what follows a parenthesis in the rest. -/
structure Reads (R : List Char → α × List Char → Prop) (t : List Char) (v : α)
    (r : List Char) : Prop where
  suffix : r <:+ t
  alike : ∀ ⦃z z' t' v' r'⦄, Stop z' → Ahead z z' t t' → z.length < r.length →
    R t' (v', r') → v' = v ∧ Ahead z z' r r'

/-- The same of a reader that may leave the character `mark`, having looked behind it and the
blanks there. -/
structure ReadsPast (mark : Char) (f : Flags) (R : List Char → α × List Char → Prop)
    (t : List Char) (v : α) (r : List Char) : Prop where
  suffix : r <:+ t
  alike : ∀ ⦃z z' t' v' r'⦄, Stop z' → Ahead z z' t t' → z.length < r.length →
    (∀ u, r = mark :: u → z.length < (skip f u).length) →
    R t' (v', r') → v' = v ∧ Ahead z z' r r'

/-- The outcome of a reader as a relation. -/
abbrev Gives (F : List Char → Result (α × List Char)) (t : List Char) (x : α × List Char) : Prop :=
  F t = .ok x

namespace Reads

variable {R : List Char → α × List Char → Prop} {S : List Char → β × List Char → Prop}
  {K : List Char → α × List Char → Prop} {v : α} {w : β} {s : List Char}

/-- Nothing is taken up. -/
theorem stay (hR : ∀ t' x, R t' x → x = (v, t')) : Reads R t v t := by
  refine ⟨List.suffix_rfl, fun z z' t' v' r' hz ha hlt h' => ?_⟩
  cases hR _ _ h'
  exact ⟨rfl, ha⟩

theorem kept (v : α) (t : List Char) : Reads (fun t x => x = (v, t)) t v t :=
  .stay fun _ _ => id

theorem mono (h : Reads K t v r)
    (hR : ∀ z z' t' x, Stop z' → Ahead z z' t t' → R t' x → K t' x) : Reads R t v r :=
  ⟨h.suffix, fun _ _ _ _ _ hz ha hlt h' => h.alike hz ha hlt (hR _ _ _ _ hz ha h')⟩

/-- A word is taken up first. -/
theorem append (word : List Char) (h : Reads K t v r) (hR : ∀ t' x, R (word ++ t') x → K t' x) :
    Reads R (word ++ t) v r := by
  refine ⟨h.suffix.trans (List.suffix_append word t), fun z z' u v' r' hz ha hlt h' => ?_⟩
  obtain ⟨t', rfl, hahead⟩ :=
    ha.append_of_length_lt word (Nat.lt_of_lt_of_le hlt h.suffix.length_le)
  exact h.alike hz hahead hlt (hR _ _ h')

/-- A character is taken up first. -/
theorem cons {c : Char} (h : Reads K t v r) (hR : ∀ t' x, R (c :: t') x → K t' x) :
    Reads R (c :: t) v r :=
  h.append [c] hR

/-- Blanks are taken up first. -/
theorem skip (h : Reads K (skip f t) v r) (hR : ∀ t' x, R t' x → K (Regex.skip f t') x) :
    Reads R t v r := by
  refine ⟨h.suffix.trans (skip_suffix f t), fun z z' u v' r' hz ha hlt h' => ?_⟩
  have hskip := ha.skip hz (Nat.lt_of_lt_of_le hlt h.suffix.length_le)
  exact h.alike hz hskip hlt (hR _ _ h')

theorem skipped (v : α) (f : Flags) (t : List Char) :
    Reads (fun t x => x = (v, Regex.skip f t)) t v (Regex.skip f t) :=
  .skip (.kept v _) fun _ _ => id

/-- One reader after another. -/
theorem bind (h : Reads S t w s) (hk : Reads K s v r)
    (hR : ∀ t' x, R t' x → ∃ w' s', S t' (w', s') ∧ (w' = w → K s' x)) : Reads R t v r := by
  refine ⟨hk.suffix.trans h.suffix, fun z z' u v' r' hz ha hlt h' => ?_⟩
  obtain ⟨w', s', hS, hK⟩ := hR _ _ h'
  obtain ⟨rfl, hs⟩ := h.alike hz ha (Nat.lt_of_lt_of_le hlt hk.suffix.length_le) hS
  exact hk.alike hz hs hlt (hK rfl)

/-- What was read is made into something else. -/
theorem andThen {F : List Char → Result (β × List Char)} {k : β → Result α}
    (h : Reads (Gives F) t w r) (hk : k w = .ok v) :
    Reads (Gives fun t => do
      let (w, r) ← F t
      let v ← k w
      return (v, r)) t v r := by
  refine h.bind (.kept v r) fun t' x hx => ?_
  obtain ⟨⟨w', s'⟩, hw', hx⟩ := bind_eq_ok.1 hx
  obtain ⟨v', hv', hx⟩ := bind_eq_ok.1 hx
  cases pure_eq_ok.1 hx
  refine ⟨w', s', hw', ?_⟩
  rintro rfl
  rw [hk] at hv'
  cases hv'
  rfl

end Reads

/-- A reader after one that looked behind a mark: it takes the mark up, and the blanks behind it. -/
theorem ReadsPast.bind {mark : Char} {R : List Char → α × List Char → Prop}
    {S : List Char → β × List Char → Prop} {K : List Char → α × List Char → Prop} {v : α} {w : β}
    {s : List Char} (h : ReadsPast mark f S t w s) (hk : Reads K s v r)
    (hmark : ∀ u, s = mark :: u → r.length ≤ (skip f u).length)
    (hR : ∀ t' x, R t' x → ∃ w' s', S t' (w', s') ∧ (w' = w → K s' x)) : Reads R t v r := by
  refine ⟨hk.suffix.trans h.suffix, fun z z' u v' r' hz ha hlt h' => ?_⟩
  obtain ⟨w', s', hS, hK⟩ := hR _ _ h'
  obtain ⟨rfl, hs⟩ := h.alike hz ha (Nat.lt_of_lt_of_le hlt hk.suffix.length_le)
    (fun u hu => Nat.lt_of_lt_of_le hlt (hmark u hu)) hS
  exact hk.alike hz hs hlt (hK rfl)

theorem Reads.past {mark : Char} {R : List Char → α × List Char → Prop} {v : α}
    (h : Reads R t v r) : ReadsPast mark f R t v r :=
  ⟨h.suffix, fun _ _ _ _ _ hz ha hlt _ h' => h.alike hz ha hlt h'⟩

/-! ### Digits and names -/

theorem reads_hexDigits {acc v : List Char} (h : hexDigits f n acc t = .ok (v, r)) :
    Reads (Gives (hexDigits f n acc)) t v r := by
  induction n generalizing acc t with
  | zero =>
      cases h
      exact .stay fun t' x h => by cases h; rfl
  | succ n ih =>
      cases t with
      | nil => simp [hexDigits] at h
      | cons c t =>
          rw [hexDigits] at h
          split at h
          · next hc =>
              have hskip : Reads (fun t x => hexDigits f n (c :: acc) (skip f t) = .ok x) t v r :=
                (ih h).skip fun _ _ => id
              exact hskip.cons fun t' x h => by rwa [Gives, hexDigits, if_pos hc] at h
          · simp at h

/-- Readers up to a closing brace, however much fuel they have. -/
theorem reads_hexBraced {acc v : List Char} (h : hexBraced f n acc t = .ok (v, r)) :
    Reads (fun t x => ∃ m, hexBraced f m acc t = .ok x) t v r := by
  induction n generalizing acc t with
  | zero => simp [hexBraced] at h
  | succ n ih =>
      cases t with
      | nil => simp [hexBraced] at h
      | cons c t =>
          rw [hexBraced] at h
          split at h
          · next hc =>
              cases h
              refine (Reads.skipped acc.reverse f t).cons fun t' x ⟨m, h⟩ => ?_
              cases m with
              | zero => simp [hexBraced] at h
              | succ m =>
                  rw [hexBraced, if_pos hc] at h
                  cases h
                  rfl
          · next hc =>
              split at h
              · next hdigit =>
                  have hskip : Reads (fun t x => ∃ m, hexBraced f m (c :: acc) (skip f t) = .ok x)
                      t v r := (ih h).skip fun _ _ => id
                  refine hskip.cons fun t' x ⟨m, h⟩ => ?_
                  cases m with
                  | zero => simp [hexBraced] at h
                  | succ m =>
                      rw [hexBraced, if_neg hc, if_pos hdigit] at h
                      exact ⟨m, h⟩
              · simp at h

theorem reads_upToBrace {acc v : List Char} (h : upToBrace f n acc t = .ok (v, r)) :
    Reads (fun t x => ∃ m, upToBrace f m acc t = .ok x) t v r := by
  induction n generalizing acc t with
  | zero => simp [upToBrace] at h
  | succ n ih =>
      cases t with
      | nil => simp [upToBrace] at h
      | cons c t =>
          rw [upToBrace] at h
          split at h
          · next hc =>
              cases h
              refine (Reads.kept acc.reverse r).cons fun t' x ⟨m, h⟩ => ?_
              cases m with
              | zero => simp [upToBrace] at h
              | succ m =>
                  rw [upToBrace, if_pos hc] at h
                  cases h
                  rfl
          · next hc =>
              have hskip : Reads (fun t x => ∃ m, upToBrace f m (c :: acc) (skip f t) = .ok x)
                  t v r := (ih h).skip fun _ _ => id
              refine hskip.cons fun t' x ⟨m, h⟩ => ?_
              cases m with
              | zero => simp [upToBrace] at h
              | succ m =>
                  rw [upToBrace, if_neg hc] at h
                  exact ⟨m, h⟩

/-- The digits of a character, in braces or so many in number. -/
def hexText (f : Flags) (digits : Nat) : List Char → Result (List Char × List Char)
  | '\x7b' :: r => hexBraced f (r.length + 1) [] (skip f r)
  | r => hexDigits f digits [] r

def hexChar (ds : List Char) : Result Char :=
  match ds, Text.hexNumber? ds with
  | _ :: _, some n => charOfNumber n
  | _, _ => .error .badHex

theorem hexChar_bind (ds r : List Char) :
    (match ds, Text.hexNumber? ds with
      | _ :: _, some n => do return (← charOfNumber n, r)
      | _, _ => .error .badHex : Result (Char × List Char)) = do
        let c ← hexChar ds
        return (c, r) := by
  rw [hexChar.eq_def]
  cases ds with
  | nil => rfl
  | cons d ds => cases Text.hexNumber? (d :: ds) <;> rfl

theorem readHex_eq (f : Flags) (digits : Nat) (cs : List Char) :
    readHex f digits cs = do
      let (ds, r) ← hexText f digits (skip f cs)
      let c ← hexChar ds
      return (c, r) := by
  rw [readHex]
  generalize skip f cs = u
  split
  · congr 1
    funext ⟨ds, r⟩
    exact hexChar_bind ds r
  · next hbrace =>
      rw [hexText.eq_2 f digits u hbrace]
      congr 1
      funext ⟨ds, r⟩
      exact hexChar_bind ds r

theorem reads_hexText {ds : List Char} (h : hexText f n t = .ok (ds, r)) :
    Reads (Gives (hexText f n)) t ds r := by
  rw [hexText.eq_def] at h
  split at h
  · next u =>
      have hskip : Reads (fun t x => ∃ m, hexBraced f m [] (skip f t) = .ok x) u ds r :=
        (reads_hexBraced h).skip fun _ _ => id
      exact hskip.cons fun t' x h => ⟨_, h⟩
  · next hbrace =>
      refine (reads_hexDigits h).mono fun z z' t' x hz ha h => ?_
      rw [Gives, hexText.eq_def] at h
      split at h
      · next u =>
          obtain ⟨u, rfl, -⟩ := ha.cons_right hz (by decide)
          exact absurd rfl (hbrace u)
      · exact h

theorem reads_readHex {c : Char} (h : readHex f n t = .ok (c, r)) :
    Reads (Gives (readHex f n)) t c r := by
  rw [readHex_eq] at h
  obtain ⟨⟨ds, s⟩, hds, h⟩ := bind_eq_ok.1 h
  obtain ⟨d, hd, h⟩ := bind_eq_ok.1 h
  cases pure_eq_ok.1 h
  refine ((reads_hexText hds).andThen hd).skip fun t' x h => ?_
  rwa [Gives, readHex_eq] at h

/-- The name of a property, in braces or a single letter. -/
def propertyText (f : Flags) : List Char → Result (List Char × List Char)
  | [] => .error .badEscape
  | '\x7b' :: r => upToBrace f (r.length + 1) [] (skip f r)
  | c :: r => if c = '\\' then .error .badEscape else .ok ([c], skip f r)

def propertyItem (f : Flags) (negated : Bool) (name : List Char) : Result Item := do
  if !f.unicode then .error .notText
  let (c, turned) ← propertyIn name
  let c := withCase f c
  return .cls (if negated != turned then .compl c else c)

theorem propertyItem_bind (f : Flags) (negated : Bool) (name r : List Char) :
    (do
      if !f.unicode then .error .notText
      let (c, turned) ← propertyIn name
      let c := withCase f c
      return (.cls (if negated != turned then .compl c else c), r) : Result (Item × List Char)) = do
        let i ← propertyItem f negated name
        return (i, r) := by
  rw [propertyItem]
  cases f.unicode with
  | false => rfl
  | true => cases propertyIn name <;> rfl

theorem readProperty_eq (f : Flags) (negated : Bool) (cs : List Char) :
    readProperty f negated cs = do
      let (name, r) ← propertyText f (skip f cs)
      let i ← propertyItem f negated name
      return (i, r) := by
  rw [readProperty]
  generalize skip f cs = u
  split
  · rfl
  · congr 1
    funext ⟨name, r⟩
    exact propertyItem_bind f negated name r
  · next c r hbrace =>
      rw [propertyText.eq_3 f c r hbrace]
      split
      · rfl
      · exact propertyItem_bind f negated [c] (skip f r)

theorem reads_propertyText {name : List Char} (h : propertyText f t = .ok (name, r)) :
    Reads (Gives (propertyText f)) t name r := by
  rw [propertyText.eq_def] at h
  split at h
  · simp at h
  · next u =>
      have hskip : Reads (fun t x => ∃ m, upToBrace f m [] (skip f t) = .ok x) u name r :=
        (reads_upToBrace h).skip fun _ _ => id
      exact hskip.cons fun t' x h => ⟨_, h⟩
  · next c u hbrace =>
      split at h
      · simp at h
      · next hc =>
          cases h
          refine (Reads.skipped [c] f u).cons fun t' x h => ?_
          rw [Gives, propertyText.eq_3 f c t' hbrace, if_neg hc] at h
          cases h
          rfl

theorem reads_readProperty {negated : Bool} {i : Item}
    (h : readProperty f negated t = .ok (i, r)) : Reads (Gives (readProperty f negated)) t i r := by
  rw [readProperty_eq] at h
  obtain ⟨⟨name, s⟩, hname, h⟩ := bind_eq_ok.1 h
  obtain ⟨j, hj, h⟩ := bind_eq_ok.1 h
  cases pure_eq_ok.1 h
  refine ((reads_propertyText hname).andThen hj).skip fun t' x h => ?_
  rwa [Gives, readProperty_eq] at h

/-! ### Word boundaries -/

/-- The letters and hyphens up to a closing brace. -/
theorem reads_boundaryName {acc v : List Char} (h : boundaryName f n acc t = (v, '\x7d' :: r)) :
    Reads (fun t x => ∃ m, boundaryName f m acc t = (x.1, '\x7d' :: x.2)) t v r := by
  have hclose : ∀ {acc u : List Char} {m : Nat},
      boundaryName f m acc ('\x7d' :: u) = (acc.reverse, '\x7d' :: u) := by
    intro acc u m
    cases m <;> rfl
  have hend : ∀ {acc u : List Char},
      Reads (fun t x => ∃ m, boundaryName f m acc t = (x.1, '\x7d' :: x.2)) ('\x7d' :: u)
        acc.reverse u := by
    intro acc u
    refine (Reads.kept acc.reverse u).cons fun t' x ⟨m, hx⟩ => ?_
    rw [hclose] at hx
    exact Prod.ext (congrArg Prod.fst hx).symm (List.cons.inj (congrArg Prod.snd hx)).2.symm
  induction n generalizing acc t with
  | zero =>
      cases h
      exact hend
  | succ n ih =>
      cases t with
      | nil => simp [boundaryName] at h
      | cons c t =>
          rw [boundaryName] at h
          split at h
          · next hc =>
              have hskip : Reads (fun t x => ∃ m, boundaryName f m (c :: acc) (skip f t) =
                  (x.1, '\x7d' :: x.2)) t v r := (ih h).skip fun _ _ => id
              refine hskip.cons fun t' x ⟨m, hx⟩ => ?_
              cases m with
              | zero =>
                  obtain ⟨rfl, -⟩ := List.cons.inj (congrArg Prod.snd hx)
                  exact absurd hc (by decide)
              | succ m =>
                  rw [boundaryName, if_pos hc] at hx
                  exact ⟨m, hx⟩
          · cases h
            exact hend

def boundaryItem (f : Flags) (name : List Char) : Result Item :=
  match String.ofList name with
  | "start" => .ok (.look (.wordStart !f.unicode))
  | "end" => .ok (.look (.wordEnd !f.unicode))
  | "start-half" => .ok (.look (.wordStartHalf !f.unicode))
  | "end-half" => .ok (.look (.wordEndHalf !f.unicode))
  | _ => .error .badWordBoundary

theorem readBoundary_named {c : Char} {s : List Char} (hskip : skip f t = c :: s)
    (hc : isBoundaryChar c = true) :
    readBoundary f ('\x7b' :: t) =
      match boundaryName f (s.length + 1) [] (c :: s) with
      | (name, '\x7d' :: r) => do
        let i ← boundaryItem f name
        return (i, r)
      | _ => .error .badWordBoundary := by
  rw [readBoundary, hskip]
  simp only [hc, if_true]
  generalize boundaryName f (s.length + 1) [] (c :: s) = x
  split
  · simp only [boundaryItem]
    split <;> simp_all [Functor.map, Except.map]
  · simp_all

theorem readBoundary_cases {i : Item} (h : readBoundary f t = .ok (i, r)) :
    (i = .look (.wordBoundary !f.unicode) ∧ r = t) ∨
      ∃ u c s name, t = '\x7b' :: u ∧ skip f u = c :: s ∧ isBoundaryChar c = true ∧
        boundaryName f (s.length + 1) [] (c :: s) = (name, '\x7d' :: r) ∧
          boundaryItem f name = .ok i := by
  by_cases hnamed : ∃ u c s, t = '\x7b' :: u ∧ skip f u = c :: s ∧ isBoundaryChar c = true
  · obtain ⟨u, c, s, rfl, hskip, hc⟩ := hnamed
    rw [readBoundary_named hskip hc] at h
    split at h
    · next name r' hname =>
        obtain ⟨j, hj, h⟩ := bind_eq_ok.1 h
        cases pure_eq_ok.1 h
        exact .inr ⟨u, c, s, name, rfl, hskip, hc, hname, hj⟩
    · simp at h
  · left
    rw [readBoundary.eq_def] at h
    split at h
    · next u =>
        split at h
        · simp at h
        · next c s hskip =>
            split at h
            · next hc => exact absurd ⟨u, c, s, rfl, hskip, hc⟩ hnamed
            · cases h
              exact ⟨rfl, rfl⟩
    · cases h
      exact ⟨rfl, rfl⟩

/-- Behind a brace that is left there is nothing that could begin a name. -/
theorem not_isBoundaryChar_of_plain {i : Item} {c : Char} {u v : List Char}
    (h : readBoundary f ('\x7b' :: u) = .ok (i, '\x7b' :: u)) (hskip : skip f u = c :: v) :
    ¬ isBoundaryChar c = true := by
  intro hc
  rw [readBoundary_named hskip hc] at h
  split at h
  · next name r hname =>
      obtain ⟨j, hj, h⟩ := bind_eq_ok.1 h
      have hread := (reads_boundaryName hname).suffix
      rw [← hskip] at hread
      have hshort := (hread.trans (skip_suffix f u)).length_le
      cases pure_eq_ok.1 h
      simp only [List.length_cons] at hshort
      omega
  · simp at h

/-- A boundary that has no name may leave a brace, and has then looked behind it. -/
theorem reads_readBoundary {i : Item} (h : readBoundary f t = .ok (i, r)) :
    ReadsPast '\x7b' f (Gives (readBoundary f)) t i r := by
  obtain ⟨rfl, rfl⟩ | ⟨u, c, s, name, rfl, hskip, hc, hname, hitem⟩ := readBoundary_cases h
  · refine ⟨List.suffix_rfl, fun z z' t' i' r' hz ha hlt hbrace h' => ?_⟩
    obtain ⟨rfl, rfl⟩ | ⟨u', c', s', name', rfl, hskip', hc', -, -⟩ := readBoundary_cases h'
    · exact ⟨rfl, ha⟩
    · -- The name of the second would begin in the first text as well.
      obtain ⟨u, rfl, hinside⟩ := ha.cons_right hz (by decide)
      have hahead := hinside.skip hz (hbrace u rfl)
      rw [hskip'] at hahead
      obtain ⟨s, hskip, -⟩ := hahead.cons_right hz (by rintro rfl; exact absurd hc' (by decide))
      exact absurd hc' (not_isBoundaryChar_of_plain h hskip)
  · have hread := reads_boundaryName hname
    have hsuffix := hread.suffix
    rw [← hskip] at hsuffix
    refine ⟨(hsuffix.trans (skip_suffix f u)).trans (List.suffix_cons _ u),
      fun z z' t' i' r' hz ha hlt _ h' => ?_⟩
    have hclose : c ≠ ')' := by
      rintro rfl
      exact absurd hc (by decide)
    obtain ⟨u', rfl, hinside⟩ := ha.cons_left (by decide)
    have hahead := hinside.skip hz (Nat.lt_of_lt_of_le hlt hsuffix.length_le)
    rw [hskip] at hahead
    obtain ⟨s', hskip', -⟩ := hahead.cons_left hclose
    rw [Gives, readBoundary_named hskip' hc] at h'
    split at h'
    · next name' r' hname' =>
        obtain ⟨j, hj, h'⟩ := bind_eq_ok.1 h'
        cases pure_eq_ok.1 h'
        rw [hskip'] at hahead
        obtain ⟨rfl, hrest⟩ := hread.alike hz hahead hlt ⟨_, hname'⟩
        rw [hitem] at hj
        cases hj
        exact ⟨rfl, hrest⟩
    · simp at h'

/-! ### Escapes -/

theorem reads_perlItem {negated : Bool} {cls : CharClass} {i : Item}
    (h : perlItem f negated cls t = .ok (i, r)) :
    Reads (Gives (perlItem f negated cls)) t i r := by
  rw [perlItem] at h
  split at h
  · simp at h
  · next hunicode =>
      cases h
      refine .stay fun t' x h => ?_
      rw [Gives, perlItem, if_neg hunicode] at h
      cases h
      rfl

theorem reads_literal {i : Item}
    (h : (do let (ch, r) ← readHex f n t; return (Item.literal ch, r)) = .ok (i, r)) :
    Reads (Gives fun t => do let (ch, r) ← readHex f n t; return (Item.literal ch, r)) t i r := by
  obtain ⟨⟨ch, s⟩, hch, h⟩ := bind_eq_ok.1 h
  cases pure_eq_ok.1 h
  exact (reads_readHex hch).andThen (k := fun ch => .ok (Item.literal ch)) rfl

/-- What follows a backslash, unless it is a word boundary that may have a name. -/
theorem reads_readEscape {i : Item} (h : readEscape f t = .ok (i, r)) (hb : t.head? ≠ some 'b') :
    Reads (Gives (readEscape f)) t i r := by
  rw [readEscape.eq_def] at h
  split at h
  · simp at h
  · next c u =>
      split at h
      any_goals exact (reads_literal h).cons fun t' x => id
      any_goals exact (reads_readProperty h).cons fun t' x => id
      any_goals exact (reads_perlItem h).cons fun t' x => id
      any_goals exact absurd rfl hb
      any_goals
        cases h
        exact (Reads.kept _ _).cons fun t' x h => by cases h; rfl
      -- Any other character stands for itself, whatever follows it.
      split at h
      · simp at h
      · split at h
        · cases h
          refine (Reads.kept _ _).cons fun t' x hx => ?_
          rw [Gives, readEscape.eq_def] at hx
          simp only at hx
          split at hx <;> simp_all
        · simp at h

end RouteEngine.Regex
