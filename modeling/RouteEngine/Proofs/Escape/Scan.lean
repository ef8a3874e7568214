import RouteEngine.Proofs.Escape.Declared

/-!
Texts taken escape by escape. Raising hex digits and reading bytes both go from left to right, take
an escape as a whole and any other character by itself. So a text may be cut in front of anything
that is no hex digit, and raising the digits leaves every slash and every byte as it is.
-/

namespace RouteEngine.Escape

open Text

/-- Two hex digits come first. After a percent sign they make an escape. -/
def startsHex : List Char → Bool
  | a :: b :: _ => isHexDigit a && isHexDigit b
  | _ => false

/-- An induction that takes each escape as a whole. -/
theorem escapes_induction {motive : List Char → Prop} (nil : motive [])
    (escape : ∀ a b r, isHexDigit a = true → isHexDigit b = true → motive r →
      motive ('%' :: a :: b :: r))
    (plain : ∀ c r, (c = '%' → startsHex r = false) → motive r → motive (c :: r))
    (l : List Char) : motive l := by
  induction l using upcaseEscapes.induct with
  | case1 => exact nil
  | case2 a b r hhex ih =>
      obtain ⟨ha, hb⟩ := Bool.and_eq_true_iff.1 hhex
      exact escape a b r ha hb ih
  | case3 a b r hhex ih => exact plain '%' _ (fun _ => Bool.eq_false_iff.2 hhex) ih
  | case4 c r hr ih =>
      refine plain c r (fun hc => ?_) ih
      cases r with
      | nil => rfl
      | cons a r =>
          cases r with
          | nil => rfl
          | cons b r => exact absurd rfl (hr a b r hc)

variable {a b c : Char} {l m r : List Char}

theorem upcaseEscapes_escape (ha : isHexDigit a = true) (hb : isHexDigit b = true) (r : List Char) :
    upcaseEscapes ('%' :: a :: b :: r) = '%' :: upperHex a :: upperHex b :: upcaseEscapes r := by
  rw [upcaseEscapes, ha, hb, Bool.and_self, if_pos rfl]

theorem upcaseEscapes_plain (h : c = '%' → startsHex r = false) :
    upcaseEscapes (c :: r) = c :: upcaseEscapes r := by
  by_cases hc : c = '%'
  · subst hc
    match r, h rfl with
    | [], _ => rfl
    | [_], _ => rfl
    | a :: b :: r, hr =>
        have hhex : ¬ (isHexDigit a && isHexDigit b) = true := Bool.eq_false_iff.1 hr
        conv => lhs; unfold upcaseEscapes
        exact if_neg hhex
  · exact upcaseEscapes_cons hc r

theorem startsHex_upcaseEscapes (r : List Char) : startsHex (upcaseEscapes r) = startsHex r := by
  match r with
  | [] => rfl
  | [a] => rw [upcaseEscapes_plain fun _ => rfl]; rfl
  | a :: b :: r =>
      by_cases ha : a = '%'
      · -- A percent sign is no hex digit, and it stays in front.
        subst ha
        have hhead := head?_upcaseEscapes ('%' :: b :: r)
        obtain ⟨s, hs⟩ := List.head?_eq_some_iff.1 hhead
        rw [hs]
        cases s <;> rfl
      · have hhead := head?_upcaseEscapes (b :: r)
        obtain ⟨s, hs⟩ := List.head?_eq_some_iff.1 hhead
        rw [upcaseEscapes_cons ha, hs]
        rfl

theorem isHexDigit_head_slash : ∀ x ∈ ('/' :: r).head?, isHexDigit x = false := by
  rintro x ⟨⟩
  rfl

theorem isHexDigit_head_percent : ∀ x ∈ ('%' :: r).head?, isHexDigit x = false := by
  rintro x ⟨⟩
  rfl

/-- What is cut off begins with no hex digit, so no escape is cut in two. -/
theorem startsHex_append (hm : ∀ x ∈ m.head?, isHexDigit x = false) :
    startsHex (r ++ m) = startsHex r := by
  match r with
  | [] =>
      cases m with
      | nil => rfl
      | cons x m =>
          have hx : isHexDigit x = false := hm x rfl
          cases m <;> simp [startsHex, hx]
  | [a] =>
      cases m with
      | nil => rfl
      | cons x m =>
          have hx : isHexDigit x = false := hm x rfl
          simp [startsHex, hx]
  | _ :: _ :: _ => rfl

theorem upcaseEscapes_append (hm : ∀ x ∈ m.head?, isHexDigit x = false) (l : List Char) :
    upcaseEscapes (l ++ m) = upcaseEscapes l ++ upcaseEscapes m := by
  induction l using escapes_induction with
  | nil => rfl
  | escape a b r ha hb ih =>
      rw [List.cons_append, List.cons_append, List.cons_append, upcaseEscapes_escape ha hb,
        upcaseEscapes_escape ha hb, ih]
      rfl
  | plain c r hc ih =>
      rw [List.cons_append, upcaseEscapes_plain fun h => by rw [startsHex_append hm, hc h],
        upcaseEscapes_plain hc, ih]
      rfl

/-! ### Upper-case digits -/

def upperDigits : List Char := "0123456789ABCDEF".toList

/-- Every percent sign with two hex digits behind it has them in upper case. -/
def Raised (l : List Char) : Prop :=
  ∀ a b r, '%' :: a :: b :: r <:+ l → isHexDigit a = true → isHexDigit b = true →
    a ∈ upperDigits ∧ b ∈ upperDigits

theorem upperHex_mem (h : isHexDigit a = true) : upperHex a ∈ upperDigits := by
  obtain ⟨n, hn⟩ := Option.isSome_iff_exists.1 h
  rw [upperHex, hn]
  exact upperHexDigit_mem n (hexValue?_lt hn)

theorem upperHex_eq_self (h : a ∈ upperDigits) : upperHex a = a := by
  have hall : (upperDigits.all fun a => upperHex a = a) = true := by decide +kernel
  exact of_decide_eq_true (List.all_eq_true.1 hall a h)

theorem ne_percent_of_isHexDigit (h : isHexDigit a = true) : a ≠ '%' := by
  rintro rfl
  exact absurd h (by decide)

theorem raised_escape (ha : isHexDigit a = true) (hb : isHexDigit b = true) :
    Raised ('%' :: a :: b :: r) ↔ (a ∈ upperDigits ∧ b ∈ upperDigits) ∧ Raised r := by
  constructor
  · intro h
    exact ⟨h a b r (List.suffix_refl _) ha hb, fun a' b' r' hsuffix =>
      h a' b' r' (hsuffix.trans ⟨['%', a, b], rfl⟩)⟩
  · rintro ⟨hdigits, hr⟩ a' b' r' hsuffix ha' hb'
    -- No escape begins at a digit of another one.
    rcases List.suffix_cons_iff.1 hsuffix with heq | hsuffix
    · cases heq
      exact hdigits
    rcases List.suffix_cons_iff.1 hsuffix with heq | hsuffix
    · exact absurd (List.cons.inj heq).1.symm (ne_percent_of_isHexDigit ha)
    rcases List.suffix_cons_iff.1 hsuffix with heq | hsuffix
    · exact absurd (List.cons.inj heq).1.symm (ne_percent_of_isHexDigit hb)
    · exact hr a' b' r' hsuffix ha' hb'

theorem raised_plain (hc : c = '%' → startsHex r = false) : Raised (c :: r) ↔ Raised r := by
  constructor
  · intro h a b r' hsuffix
    exact h a b r' (hsuffix.trans (List.suffix_cons c r))
  · intro h a b r' hsuffix ha hb
    rcases List.suffix_cons_iff.1 hsuffix with heq | hsuffix
    · obtain ⟨hpercent, rfl⟩ := List.cons.inj heq
      have hstarts := hc hpercent.symm
      rw [startsHex, ha, hb] at hstarts
      exact absurd hstarts (by decide)
    · exact h a b r' hsuffix ha hb

theorem upcaseEscapes_eq_self_iff (l : List Char) : upcaseEscapes l = l ↔ Raised l := by
  induction l using escapes_induction with
  | nil => simp [upcaseEscapes, Raised]
  | escape a b r ha hb ih =>
      rw [upcaseEscapes_escape ha hb, raised_escape ha hb, ← ih]
      simp only [List.cons.injEq, true_and, and_assoc]
      constructor
      · rintro ⟨ha', hb', hr⟩
        exact ⟨ha' ▸ upperHex_mem ha, hb' ▸ upperHex_mem hb, hr⟩
      · rintro ⟨ha', hb', hr⟩
        exact ⟨upperHex_eq_self ha', upperHex_eq_self hb', hr⟩
  | plain c r hc ih =>
      rw [upcaseEscapes_plain hc, raised_plain hc, ← ih]
      simp

theorem isHexDigit_upperHex (h : isHexDigit a = true) : isHexDigit (upperHex a) = true := by
  obtain ⟨n, hn⟩ := Option.isSome_iff_exists.1 h
  rw [upperHex, hn]
  exact isHexDigit_upperHexDigit (hexValue?_lt hn)

theorem raised_upcaseEscapes (l : List Char) : Raised (upcaseEscapes l) := by
  induction l using escapes_induction with
  | nil => simp [upcaseEscapes, Raised]
  | escape a b r ha hb ih =>
      rw [upcaseEscapes_escape ha hb,
        raised_escape (isHexDigit_upperHex ha) (isHexDigit_upperHex hb)]
      exact ⟨⟨upperHex_mem ha, upperHex_mem hb⟩, ih⟩
  | plain c r hc ih =>
      rw [upcaseEscapes_plain hc, raised_plain fun h => by rw [startsHex_upcaseEscapes, hc h]]
      exact ih

/-! ### Bytes -/

theorem hexValue?_upperHex (h : isHexDigit a = true) : hexValue? (upperHex a) = hexValue? a := by
  obtain ⟨n, hn⟩ := Option.isSome_iff_exists.1 h
  rw [upperHex, hn]
  exact hexValue?_upperHexDigit n (hexValue?_lt hn)

theorem unescapeBytes_escape {x y : Nat} (ha : hexValue? a = some x) (hb : hexValue? b = some y)
    (r : List Char) :
    unescapeBytes ('%' :: a :: b :: r) = UInt8.ofNat (16 * x + y) :: unescapeBytes r := by
  rw [unescapeBytes, ha, hb]

theorem unescapeBytes_plain (h : c = '%' → startsHex r = false) :
    unescapeBytes (c :: r) = Utf8.encodeChar c ++ unescapeBytes r := by
  by_cases hc : c = '%'
  · subst hc
    match r, h rfl with
    | [], _ => rfl
    | [_], _ => rfl
    | a :: b :: r, hr =>
        rw [startsHex, isHexDigit, isHexDigit] at hr
        conv => lhs; unfold unescapeBytes
        cases ha : hexValue? a with
        | none => simp only [ha]
        | some x =>
            cases hb : hexValue? b with
            | none => simp only [ha, hb]
            | some y => simp [ha, hb] at hr
  · exact unescapeBytes_cons hc r

theorem unescapeBytes_append (hm : ∀ x ∈ m.head?, isHexDigit x = false) (l : List Char) :
    unescapeBytes (l ++ m) = unescapeBytes l ++ unescapeBytes m := by
  induction l using escapes_induction with
  | nil => rfl
  | escape a b r ha hb ih =>
      obtain ⟨x, hx⟩ := Option.isSome_iff_exists.1 ha
      obtain ⟨y, hy⟩ := Option.isSome_iff_exists.1 hb
      rw [List.cons_append, List.cons_append, List.cons_append, unescapeBytes_escape hx hy,
        unescapeBytes_escape hx hy, ih]
      rfl
  | plain c r hc ih =>
      rw [List.cons_append, unescapeBytes_plain fun h => by rw [startsHex_append hm, hc h],
        unescapeBytes_plain hc, ih, List.append_assoc]

/-- Escapes mean the same in either case. -/
theorem unescapeBytes_upcaseEscapes (l : List Char) :
    unescapeBytes (upcaseEscapes l) = unescapeBytes l := by
  induction l using escapes_induction with
  | nil => rfl
  | escape a b r ha hb ih =>
      obtain ⟨x, hx⟩ := Option.isSome_iff_exists.1 ha
      obtain ⟨y, hy⟩ := Option.isSome_iff_exists.1 hb
      rw [upcaseEscapes_escape ha hb, unescapeBytes_escape hx hy,
        unescapeBytes_escape ((hexValue?_upperHex ha).trans hx) ((hexValue?_upperHex hb).trans hy),
        ih]
  | plain c r hc ih =>
      rw [upcaseEscapes_plain hc,
        unescapeBytes_plain fun h => by rw [startsHex_upcaseEscapes, hc h],
        unescapeBytes_plain hc, ih]

end RouteEngine.Escape
