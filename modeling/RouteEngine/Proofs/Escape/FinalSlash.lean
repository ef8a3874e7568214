import Mathlib.Data.List.Induction
import Mathlib.Logic.Relation
import RouteEngine.Proofs.Escape.Scan

/-!
The end of a path in canonical form. One slash is dropped there, plain or escaped, and plain ones
in a row count as one; so what is left ends in a slash exactly when the path had another before
it. Where there was one at most (`OneFinalSlash`), the canonical form stays as it is when it is
taken again, and slashes that are added or taken away do not change it.
-/

namespace RouteEngine.Escape

open Text

variable {l m p q r : List Char}

/-! ### The slash behind a text -/

/-- Whether a slash stands at the end, where `slash` says so of what is in front of the text. -/
def slashBehind (slash : Bool) (l : List Char) : Bool := l.foldl (fun _ c => c == '/') slash

theorem slashBehind_append (slash : Bool) (l m : List Char) :
    slashBehind slash (l ++ m) = slashBehind (slashBehind slash l) m :=
  List.foldl_append

theorem slashBehind_eq_true {slash : Bool} :
    slashBehind slash l = true ↔ l = [] ∧ slash = true ∨ ['/'] <:+ l := by
  induction l using List.reverseRecOn with
  | nil => simp [slashBehind]
  | append_singleton l c ih =>
      have hlast : slashBehind slash (l ++ [c]) = (c == '/') := slashBehind_append slash l [c]
      rw [hlast, List.singleton_suffix_iff_getLast?_eq_some]
      simp

theorem squeezeAfter_append_slashBehind (slash : Bool) (l m : List Char) :
    squeezeAfter slash (l ++ m) = squeezeAfter slash l ++ squeezeAfter (slashBehind slash l) m := by
  induction l generalizing slash with
  | nil => rfl
  | cons c l ih =>
      have hcons : slashBehind slash (c :: l) = slashBehind (c == '/') l := rfl
      rw [List.cons_append, squeezeAfter, squeezeAfter, hcons, ih, ih]
      by_cases hc : c = '/'
      · subst hc
        cases slash <;> rfl
      · rw [if_neg hc, if_neg hc, beq_eq_false_iff_ne.2 hc]
        rfl

theorem slashBehind_squeezeAfter (slash : Bool) (l : List Char) :
    slashBehind slash (squeezeAfter slash l) = slashBehind slash l := by
  induction l generalizing slash with
  | nil => rfl
  | cons c l ih =>
      have hcons : slashBehind slash (c :: l) = slashBehind (c == '/') l := rfl
      rw [squeezeAfter, hcons]
      by_cases hc : c = '/'
      · subst hc
        cases slash with
        | true => exact ih true
        | false => exact ih true
      · rw [if_neg hc, beq_eq_false_iff_ne.2 hc, ← ih false]
        exact congrArg (slashBehind · _) (beq_eq_false_iff_ne.2 hc)

theorem slashBehind_upcaseEscapes (slash : Bool) (l : List Char) :
    slashBehind slash (upcaseEscapes l) = slashBehind slash l := by
  have hdigit : ∀ {a : Char}, isHexDigit a = true → (a == '/') = false := by
    intro a ha
    refine beq_eq_false_iff_ne.2 ?_
    rintro rfl
    exact absurd ha (by decide)
  induction l using escapes_induction generalizing slash with
  | nil => rfl
  | escape a b r ha hb ih =>
      rw [upcaseEscapes_escape ha hb]
      change slashBehind (upperHex b == '/') (upcaseEscapes r) = slashBehind (b == '/') r
      rw [ih, hdigit hb, hdigit (isHexDigit_upperHex hb)]
  | plain c r hc ih =>
      rw [upcaseEscapes_plain hc]
      exact ih (c == '/')

/-! ### Before anything is dropped -/

/-- A path with a slash in front, its slashes squeezed and its escapes in upper case. -/
def tidied (p : List Char) : List Char := upcaseEscapes ('/' :: squeezeAfter true p)

theorem normalizeChars_eq (p : List Char) : normalizeChars p = dropFinalSlash (tidied p) := rfl

/-- A slash as it stands at the end of a path. -/
def EndsInSlash (p : List Char) : Prop :=
  ['/'] <:+ p ∨ ['%', '2', 'F'] <:+ p ∨ ['%', '2', 'f'] <:+ p

instance : Decidable (EndsInSlash p) := inferInstanceAs (Decidable (_ ∨ _ ∨ _))

def IsEscapedSlash (e : List Char) : Prop := e = ['%', '2', 'F'] ∨ e = ['%', '2', 'f']

theorem endsInSlash_iff :
    EndsInSlash p ↔ ['/'] <:+ p ∨ ∃ body e, IsEscapedSlash e ∧ p = body ++ e := by
  constructor
  · rintro (h | ⟨body, rfl⟩ | ⟨body, rfl⟩)
    · exact .inl h
    · exact .inr ⟨body, _, .inl rfl, rfl⟩
    · exact .inr ⟨body, _, .inr rfl, rfl⟩
  · rintro (h | ⟨body, e, rfl | rfl, rfl⟩)
    · exact .inl h
    · exact .inr (.inl ⟨body, rfl⟩)
    · exact .inr (.inr ⟨body, rfl⟩)

theorem tidied_append_escaped {e : List Char} (he : IsEscapedSlash e) (p : List Char) :
    tidied (p ++ e) = tidied p ++ ['%', '2', 'F'] := by
  have hpercent : ∀ x ∈ e.head?, isHexDigit x = false := by
    rcases he with rfl | rfl <;> exact isHexDigit_head_percent
  have hsqueezed : ∀ slash, squeezeAfter slash e = e := by
    rcases he with rfl | rfl <;> intro slash <;> rfl
  have hraised : upcaseEscapes e = ['%', '2', 'F'] := by
    rcases he with rfl | rfl <;> decide
  rw [tidied, squeezeAfter_append_slashBehind, hsqueezed, ← List.cons_append,
    upcaseEscapes_append hpercent, hraised]
  rfl

theorem tidied_append_slash (p : List Char) :
    tidied (p ++ ['/']) = if slashBehind true p then tidied p else tidied p ++ ['/'] := by
  rw [tidied, squeezeAfter_append_slashBehind]
  split
  · next hbehind =>
      rw [hbehind]
      change upcaseEscapes ('/' :: (squeezeAfter true p ++ [])) = tidied p
      rw [List.append_nil]
      rfl
  · next hbehind =>
      rw [Bool.eq_false_iff.2 hbehind]
      change upcaseEscapes ('/' :: squeezeAfter true p ++ ['/']) = tidied p ++ ['/']
      rw [upcaseEscapes_append isHexDigit_head_slash]
      rfl

theorem slash_suffix_tidied : ['/'] <:+ tidied p ↔ p = [] ∨ ['/'] <:+ p := by
  have hbehind : slashBehind false (tidied p) = slashBehind true p := by
    rw [tidied, slashBehind_upcaseEscapes]
    exact slashBehind_squeezeAfter true p
  have hiff : slashBehind false (tidied p) = true ↔ slashBehind true p = true := by rw [hbehind]
  simpa [slashBehind_eq_true] using hiff

/-! ### Escaped slashes at the end -/

/-- Only one of two spellings becomes an escaped slash when its digits are raised. -/
theorem isEscapedSlash_of_upperHex {a b : Char} (ha : isHexDigit a = true)
    (hb : isHexDigit b = true) (ha' : upperHex a = '2') (hb' : upperHex b = 'F') :
    IsEscapedSlash ['%', a, b] := by
  have htwo : hexValue? a = some 2 := by
    rw [← hexValue?_upperHex ha, ha']
    rfl
  have hfifteen : hexValue? b = some 15 := by
    rw [← hexValue?_upperHex hb, hb']
    rfl
  have ha2 : a = '2' := by
    have hnat := toNat_of_hexValue? htwo
    exact Char.toNat_inj.1 (show a.toNat = 50 by omega)
  have hbF : b = 'F' ∨ b = 'f' := by
    rcases toNat_of_hexValue? hfifteen with ⟨-, hlt⟩ | ⟨hupper | hlower, -⟩
    · omega
    · exact .inl (Char.toNat_inj.1 hupper)
    · exact .inr (Char.toNat_inj.1 hlower)
  subst ha2
  rcases hbF with rfl | rfl
  · exact .inl rfl
  · exact .inr rfl

theorem escaped_suffix_upcaseEscapes (h : ['%', '2', 'F'] <:+ upcaseEscapes l) :
    ∃ e, IsEscapedSlash e ∧ e <:+ l := by
  induction l using escapes_induction with
  | nil => simp [upcaseEscapes] at h
  | escape a b r ha hb ih =>
      have hlater : ∀ {e}, e <:+ r → e <:+ '%' :: a :: b :: r := fun he => he.trans ⟨['%', a, b], rfl⟩
      rw [upcaseEscapes_escape ha hb] at h
      rcases List.suffix_cons_iff.1 h with heq | h
      · simp only [List.cons.injEq, true_and] at heq
        obtain ⟨htwo, hF, hnil⟩ := heq
        have hr : r = [] := by
          have hhead := head?_upcaseEscapes r
          rw [← hnil] at hhead
          exact List.head?_eq_none_iff.1 hhead.symm
        subst hr
        exact ⟨_, isEscapedSlash_of_upperHex ha hb htwo.symm hF.symm, List.suffix_refl _⟩
      rcases List.suffix_cons_iff.1 h with heq | h
      · exact absurd (List.cons.inj heq).1.symm (ne_percent_of_isHexDigit (isHexDigit_upperHex ha))
      rcases List.suffix_cons_iff.1 h with heq | h
      · exact absurd (List.cons.inj heq).1.symm (ne_percent_of_isHexDigit (isHexDigit_upperHex hb))
      · obtain ⟨e, he, hsuffix⟩ := ih h
        exact ⟨e, he, hlater hsuffix⟩
  | plain c r hc ih =>
      rw [upcaseEscapes_plain hc] at h
      rcases List.suffix_cons_iff.1 h with heq | hsuffix
      · -- The percent sign would begin an escape.
        obtain ⟨hpercent, hrest⟩ := List.cons.inj heq
        have hstarts := hc hpercent.symm
        rw [← startsHex_upcaseEscapes, ← hrest] at hstarts
        exact absurd hstarts (by decide)
      · obtain ⟨e, he, hsuffix⟩ := ih hsuffix
        exact ⟨e, he, hsuffix.trans (List.suffix_cons c r)⟩

theorem squeezeAfter_of_not_mem (h : '/' ∉ squeezeAfter false l) : squeezeAfter false l = l := by
  induction l with
  | nil => rfl
  | cons c l ih =>
      by_cases hc : c = '/'
      · subst hc
        exact absurd List.mem_cons_self h
      · rw [squeezeAfter, if_neg hc] at h ⊢
        rw [ih fun hmem => h (List.mem_cons_of_mem _ hmem)]

/-- Squeezing leaves what stands behind the last slash. -/
theorem suffix_of_suffix_squeezeAfter {e : List Char} (he : '/' ∉ e) {slash : Bool}
    (h : e <:+ squeezeAfter slash l) : e <:+ l := by
  induction l generalizing slash with
  | nil => exact h
  | cons c l ih =>
      have hlater : ∀ {slash}, e <:+ squeezeAfter slash l → e <:+ c :: l :=
        fun h => (ih h).trans (List.suffix_cons c l)
      rw [squeezeAfter] at h
      split at h
      · cases slash with
        | true => exact hlater h
        | false =>
            rcases List.suffix_cons_iff.1 h with rfl | h
            · exact absurd List.mem_cons_self he
            · exact hlater h
      · rcases List.suffix_cons_iff.1 h with rfl | h
        · have hsame : squeezeAfter false l = l :=
            squeezeAfter_of_not_mem fun hmem => he (List.mem_cons_of_mem _ hmem)
          exact ⟨[], congrArg (c :: ·) hsame⟩
        · exact hlater h

theorem escaped_suffix_tidied :
    ['%', '2', 'F'] <:+ tidied p ↔ ∃ body e, IsEscapedSlash e ∧ p = body ++ e := by
  constructor
  · intro h
    obtain ⟨e, he, hsuffix⟩ := escaped_suffix_upcaseEscapes h
    have hslash : '/' ∉ e := by rcases he with rfl | rfl <;> decide
    rcases List.suffix_cons_iff.1 hsuffix with rfl | hsuffix
    · exact absurd List.mem_cons_self hslash
    · obtain ⟨body, rfl⟩ := suffix_of_suffix_squeezeAfter hslash hsuffix
      exact ⟨body, e, he, rfl⟩
  · rintro ⟨body, e, he, rfl⟩
    exact ⟨tidied body, (tidied_append_escaped he body).symm⟩

theorem tidied_eq_cons (p : List Char) : tidied p = '/' :: upcaseEscapes (squeezeAfter true p) :=
  upcaseEscapes_cons (by decide) _

theorem tidied_ne_nil : tidied p ≠ [] := by
  rw [tidied_eq_cons]
  exact List.cons_ne_nil _ _

theorem squeezeAfter_eq_nil : squeezeAfter true p = [] ↔ ∀ c ∈ p, c = '/' := by
  induction p with
  | nil => simp [squeezeAfter]
  | cons c p ih =>
      by_cases hc : c = '/'
      · rw [squeezeAfter, if_pos hc, if_pos rfl, ih]
        simp [hc]
      · simp [squeezeAfter, hc]

theorem tidied_eq_root : tidied p = ['/'] ↔ ∀ c ∈ p, c = '/' := by
  have hhead := head?_upcaseEscapes (squeezeAfter true p)
  rw [tidied_eq_cons, List.cons.injEq, and_iff_right rfl, ← List.head?_eq_none_iff, hhead,
    List.head?_eq_none_iff, squeezeAfter_eq_nil]

/-! ### Dropping one slash -/

/-- A canonical path ends in no slash, unless it is the root. -/
def EndsPlain (q : List Char) : Prop := q = ['/'] ∨ ¬ ['/'] <:+ q ∧ ¬ ['%', '2', 'F'] <:+ q

theorem dropFinalSlash_append_slash (hq : q ≠ []) : dropFinalSlash (q ++ ['/']) = q := by
  have hroot : q ++ ['/'] ≠ ['/'] := fun h => hq (List.append_left_eq_self.1 h)
  rw [dropFinalSlash, if_neg hroot, dropSuffix?_eq_some.2 rfl]

theorem dropFinalSlash_append_escaped (q : List Char) :
    dropFinalSlash (q ++ ['%', '2', 'F']) = q := by
  have hroot : q ++ ['%', '2', 'F'] ≠ ['/'] := fun h => by simpa using congrArg List.length h
  have hslash : ¬ ['/'] <:+ q ++ ['%', '2', 'F'] := by
    rw [List.singleton_suffix_iff_getLast?_eq_some]
    simp
  rw [dropFinalSlash, if_neg hroot, dropSuffix?_eq_none hslash, dropSuffix?_eq_some.2 rfl]
  rfl

theorem dropFinalSlash_of_endsPlain (h : EndsPlain q) : dropFinalSlash q = q := by
  rw [dropFinalSlash]
  split
  · rfl
  · next hroot =>
      obtain ⟨hslash, hescaped⟩ := h.resolve_left hroot
      rw [dropSuffix?_eq_none hslash, dropSuffix?_eq_none hescaped]
      rfl

/-- A text that does not end plainly has a slash at its end, and something in front of it. -/
theorem exists_append_of_not_endsPlain (h : ¬ EndsPlain q) :
    (∃ s, s ≠ [] ∧ q = s ++ ['/']) ∨ ∃ s, q = s ++ ['%', '2', 'F'] := by
  obtain ⟨hroot, hends⟩ := not_or.1 h
  by_cases hslash : ['/'] <:+ q
  · obtain ⟨s, rfl⟩ := hslash
    exact .inl ⟨s, fun hs => hroot (by rw [hs, List.nil_append]), rfl⟩
  · obtain ⟨s, rfl⟩ := not_not.1 (not_and.1 hends hslash)
    exact .inr ⟨s, rfl⟩

theorem dropFinalSlash_eq_self_iff : dropFinalSlash q = q ↔ EndsPlain q := by
  refine ⟨fun h => ?_, dropFinalSlash_of_endsPlain⟩
  by_contra hends
  rcases exists_append_of_not_endsPlain hends with ⟨s, hs, rfl⟩ | ⟨s, rfl⟩
  · rw [dropFinalSlash_append_slash hs] at h
    simpa using congrArg List.length h
  · rw [dropFinalSlash_append_escaped] at h
    simpa using congrArg List.length h

theorem endsPlain_tidied : EndsPlain (tidied p) ↔ (∀ c ∈ p, c = '/') ∨ ¬ EndsInSlash p := by
  rw [EndsPlain, tidied_eq_root, slash_suffix_tidied, escaped_suffix_tidied, endsInSlash_iff]
  constructor
  · rintro (hall | ⟨hslash, hescaped⟩)
    · exact .inl hall
    · exact .inr fun h => h.elim (fun h => hslash (.inr h)) hescaped
  · rintro (hall | hends)
    · exact .inl hall
    · obtain ⟨hslash, hescaped⟩ := not_or.1 hends
      by_cases hp : p = []
      · exact .inl (by simp [hp])
      · exact .inr ⟨fun h => h.elim hp hslash, hescaped⟩

/-! ### One slash at the end -/

/-- What is dropped from the end of a path: plain slashes in a row, or one that is escaped. -/
def IsTail (tail : List Char) : Prop := (∀ c ∈ tail, c = '/') ∨ IsEscapedSlash tail

/-- One slash at most stands at the end, if not at the root. -/
def OneFinalSlash (p : List Char) : Prop :=
  ∃ body tail, p = body ++ tail ∧ IsTail tail ∧ ((∀ c ∈ body, c = '/') ∨ ¬ EndsInSlash body)

theorem squeezeAfter_slashes {tail : List Char} (h : ∀ c ∈ tail, c = '/') (slash : Bool) :
    squeezeAfter slash tail = [] ∨ squeezeAfter slash tail = ['/'] := by
  cases slash with
  | true => exact .inl (squeezeAfter_eq_nil.2 h)
  | false =>
      cases tail with
      | nil => exact .inl rfl
      | cons c tail =>
          obtain ⟨rfl, htail⟩ := List.forall_mem_cons.1 h
          exact .inr (congrArg ('/' :: ·) (squeezeAfter_eq_nil.2 htail))

theorem tidied_append_slashes {tail : List Char} (h : ∀ c ∈ tail, c = '/') (p : List Char) :
    tidied (p ++ tail) = tidied p ∨ tidied (p ++ tail) = tidied p ++ ['/'] := by
  rw [tidied, squeezeAfter_append_slashBehind]
  rcases squeezeAfter_slashes h (slashBehind true p) with htail | htail <;> rw [htail]
  · rw [List.append_nil]
    exact .inl rfl
  · rw [← List.cons_append, upcaseEscapes_append isHexDigit_head_slash]
    exact .inr rfl

theorem normalizeChars_append (hbody : EndsPlain (tidied p)) {tail : List Char}
    (htail : IsTail tail) : normalizeChars (p ++ tail) = tidied p := by
  rcases htail with hslashes | hescaped
  · rw [normalizeChars_eq]
    rcases tidied_append_slashes hslashes p with heq | heq <;> rw [heq]
    · exact dropFinalSlash_of_endsPlain hbody
    · exact dropFinalSlash_append_slash tidied_ne_nil
  · rw [normalizeChars_eq, tidied_append_escaped hescaped, dropFinalSlash_append_escaped]

/-- What is dropped is a tail of the path, and the rest is only tidied. -/
theorem exists_body (p : List Char) :
    ∃ body tail, p = body ++ tail ∧ IsTail tail ∧ normalizeChars p = tidied body := by
  induction p using List.reverseRecOn with
  | nil => exact ⟨[], [], rfl, .inl (by simp), by decide⟩
  | append_singleton p c ih =>
      by_cases hc : c = '/'
      · subst hc
        rw [normalizeChars_eq, tidied_append_slash]
        split
        · next hbehind =>
            obtain ⟨body, tail, rfl, htail, hnormal⟩ := ih
            refine ⟨body, tail ++ ['/'], List.append_assoc _ _ _, ?_, hnormal⟩
            rcases htail with hslashes | rfl | rfl
            · exact .inl (by simpa [or_imp, forall_and] using hslashes)
            -- No slash stands behind an escaped one.
            · rw [slashBehind_append] at hbehind
              cases hbehind
            · rw [slashBehind_append] at hbehind
              cases hbehind
        · exact ⟨p, ['/'], rfl, .inl (by simp), dropFinalSlash_append_slash tidied_ne_nil⟩
      · by_cases hescaped : ∃ body e, IsEscapedSlash e ∧ p ++ [c] = body ++ e
        · obtain ⟨body, e, he, heq⟩ := hescaped
          refine ⟨body, e, heq, .inr he, ?_⟩
          rw [heq, normalizeChars_eq, tidied_append_escaped he, dropFinalSlash_append_escaped]
        · have hends : ¬ EndsInSlash (p ++ [c]) := by
            rw [endsInSlash_iff, List.singleton_suffix_iff_getLast?_eq_some]
            simpa [hc] using hescaped
          refine ⟨p ++ [c], [], (List.append_nil _).symm, .inl (by simp), ?_⟩
          exact dropFinalSlash_of_endsPlain (endsPlain_tidied.2 (.inr hends))

theorem endsPlain_normalizeChars : EndsPlain (normalizeChars p) ↔ OneFinalSlash p := by
  constructor
  · intro h
    obtain ⟨body, tail, hp, htail, hnormal⟩ := exists_body p
    rw [hnormal] at h
    exact ⟨body, tail, hp, htail, endsPlain_tidied.1 h⟩
  · rintro ⟨body, tail, rfl, htail, hbody⟩
    have hplain := endsPlain_tidied.2 hbody
    rwa [normalizeChars_append hplain htail]

/-! ### Taking the canonical form again -/

theorem squeezeAfter_of_squeezed (h : Squeezed r) {slash : Bool}
    (hslash : slash = true → r.head? ≠ some '/') : squeezeAfter slash r = r := by
  induction r generalizing slash with
  | nil => rfl
  | cons c r ih =>
      rw [squeezeAfter]
      split
      · next hc =>
          subst hc
          cases slash with
          | true => exact absurd rfl (hslash rfl)
          | false => exact congrArg ('/' :: ·) (ih h.2 fun _ => h.1 rfl)
      · have hsame : squeezeAfter false r = r := ih h.2 fun hfalse => absurd hfalse Bool.false_ne_true
        rw [hsame]

theorem raised_normalizeChars (p : List Char) : Raised (normalizeChars p) := by
  obtain ⟨body, -, -, -, hnormal⟩ := exists_body p
  rw [hnormal]
  exact raised_upcaseEscapes _

theorem exists_normalizeChars_eq_cons (p : List Char) : ∃ r, normalizeChars p = '/' :: r := by
  obtain ⟨body, -, -, -, hnormal⟩ := exists_body p
  exact ⟨_, hnormal.trans (tidied_eq_cons body)⟩

/-- There is nothing to tidy in a canonical form. -/
theorem tidied_normalizeChars (p : List Char) : tidied (normalizeChars p) = normalizeChars p := by
  obtain ⟨r, hr⟩ := exists_normalizeChars_eq_cons p
  have hsqueezed := squeezed_normalizeChars p
  have hraised := (upcaseEscapes_eq_self_iff _).2 (raised_normalizeChars p)
  rw [hr] at hsqueezed hraised ⊢
  have hsame : squeezeAfter true ('/' :: r) = r :=
    squeezeAfter_of_squeezed hsqueezed.2 fun _ => hsqueezed.1 rfl
  rw [tidied, hsame, hraised]

theorem normalizeChars_eq_self_iff :
    normalizeChars (normalizeChars p) = normalizeChars p ↔ OneFinalSlash p := by
  rw [normalizeChars_eq (normalizeChars p), tidied_normalizeChars, dropFinalSlash_eq_self_iff,
    endsPlain_normalizeChars]

/-! ### Slashes that mean nothing -/

/-- The second path has one slash more, at a place where the canonical form drops it. -/
inductive AddsSlash : List Char → List Char → Prop
  | leading (p : List Char) : AddsSlash p ('/' :: p)
  | doubled (l r : List Char) : AddsSlash (l ++ '/' :: r) (l ++ '/' :: '/' :: r)
  | final (p : List Char) : AddsSlash p (p ++ ['/'])
  | escaped (p : List Char) {e : List Char} (he : IsEscapedSlash e) : AddsSlash p (p ++ e)

/-- Drops slashes from a text that is read from its end, down to the root. -/
def stripped : List Char → List Char
  | ['/'] => ['/']
  | '/' :: r => stripped r
  | 'F' :: '2' :: '%' :: r => stripped r
  | r => r

/-- A tidied path without any slash at its end. -/
def bare (q : List Char) : List Char := (stripped q.reverse).reverse

theorem bare_append_slash (hq : q ≠ []) : bare (q ++ ['/']) = bare q := by
  have hne : q.reverse ≠ [] := by simpa using hq
  rw [bare, bare, List.reverse_append, List.reverse_singleton, List.singleton_append, stripped]
  exact hne

theorem bare_append_escaped (q : List Char) : bare (q ++ ['%', '2', 'F']) = bare q := by
  rw [bare, List.reverse_append]
  rfl

theorem bare_of_endsPlain (h : EndsPlain q) : bare q = q := by
  rcases h with rfl | ⟨hslash, hescaped⟩
  · rfl
  · suffices hsame : stripped q.reverse = q.reverse by rw [bare, hsame, List.reverse_reverse]
    have hends : ∀ {e r : List Char}, q.reverse = e.reverse ++ r → e <:+ q := by
      intro e r heq
      refine ⟨r.reverse, ?_⟩
      rw [← List.reverse_reverse q, heq, List.reverse_append, List.reverse_reverse]
    unfold stripped
    split
    · next heq => exact heq.symm
    · next r _ heq => exact absurd (hends (e := ['/']) heq) hslash
    · next r heq => exact absurd (hends (e := ['%', '2', 'F']) heq) hescaped
    · rfl

theorem bare_dropFinalSlash (q : List Char) : bare (dropFinalSlash q) = bare q := by
  by_cases h : EndsPlain q
  · rw [dropFinalSlash_of_endsPlain h]
  · rcases exists_append_of_not_endsPlain h with ⟨s, hs, rfl⟩ | ⟨s, rfl⟩
    · rw [dropFinalSlash_append_slash hs, bare_append_slash hs]
    · rw [dropFinalSlash_append_escaped, bare_append_escaped]

theorem tidied_doubled (l r : List Char) :
    tidied (l ++ '/' :: '/' :: r) = tidied (l ++ '/' :: r) := by
  rw [tidied, tidied, squeezeAfter_append_slashBehind, squeezeAfter_append_slashBehind]
  cases slashBehind true l <;> rfl

theorem bare_tidied_of_addsSlash {p p' : List Char} (h : AddsSlash p p') :
    bare (tidied p') = bare (tidied p) := by
  cases h with
  | leading => rfl
  | doubled l r => rw [tidied_doubled]
  | final =>
      rw [tidied_append_slash]
      split
      · rfl
      · exact bare_append_slash tidied_ne_nil
  | escaped _ he => rw [tidied_append_escaped he, bare_append_escaped]

theorem bare_tidied_of_eqvGen {p p' : List Char} (h : Relation.EqvGen AddsSlash p p') :
    bare (tidied p) = bare (tidied p') := by
  induction h with
  | rel _ _ h => exact (bare_tidied_of_addsSlash h).symm
  | refl => rfl
  | symm _ _ _ ih => exact ih.symm
  | trans _ _ _ _ _ ih ih' => exact ih.trans ih'

/-- Paths that differ in such slashes only have one canonical form, unless more than one slash
stands at the end of one of them. -/
theorem normalizeChars_eq_of_eqvGen {p p' : List Char} (hp : OneFinalSlash p)
    (hp' : OneFinalSlash p') (h : Relation.EqvGen AddsSlash p p') :
    normalizeChars p = normalizeChars p' := by
  have hbare := bare_tidied_of_eqvGen h
  rwa [← bare_dropFinalSlash, ← bare_dropFinalSlash (tidied p'), ← normalizeChars_eq,
    ← normalizeChars_eq, bare_of_endsPlain (endsPlain_normalizeChars.2 hp),
    bare_of_endsPlain (endsPlain_normalizeChars.2 hp')] at hbare

end RouteEngine.Escape
