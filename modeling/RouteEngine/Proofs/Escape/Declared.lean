import RouteEngine.Proofs.Escape.Canonical
import RouteEngine.Proofs.Text.Split

/-!
The slashes of a declared path. Bringing a path into its canonical form leaves no slash behind a
slash, and neither does moving slashes in front of groups into them: a slash that is carried past
opening parentheses swallows the one it meets.
-/

namespace RouteEngine.Escape

open Text

/-- What follows each slash of the text satisfies `P`; nothing follows one at the end. -/
def SlashesBefore (P : Option Char → Prop) : List Char → Prop
  | [] => True
  | c :: r => (c = '/' → P r.head?) ∧ SlashesBefore P r

/-- No slash follows a slash. -/
def Squeezed : List Char → Prop := SlashesBefore (· ≠ some '/')

variable {P : Option Char → Prop} {l m r : List Char} {c : Char}

theorem SlashesBefore.of_append (h : SlashesBefore P (l ++ r)) : SlashesBefore P r := by
  induction l with
  | nil => exact h
  | cons c l ih => exact ih h.2

theorem SlashesBefore.of_suffix (h : SlashesBefore P m) (hsuffix : r <:+ m) :
    SlashesBefore P r := by
  obtain ⟨l, rfl⟩ := hsuffix
  exact h.of_append

/-- A text may be cut anywhere if a slash may stand at the end. -/
theorem SlashesBefore.of_prefix (hend : P none) (h : SlashesBefore P (l ++ r)) :
    SlashesBefore P l := by
  induction l with
  | nil => trivial
  | cons c l ih =>
      refine ⟨fun hc => ?_, ih h.2⟩
      cases l with
      | nil => exact hend
      | cons d l => exact h.1 hc

/-- Texts without slashes in front change nothing. -/
theorem SlashesBefore.append (hl : '/' ∉ l) (h : SlashesBefore P r) :
    SlashesBefore P (l ++ r) := by
  induction l with
  | nil => exact h
  | cons c l ih =>
      simp only [List.mem_cons, not_or] at hl
      exact ⟨fun hc => absurd hc.symm hl.1, ih hl.2⟩

def decidableSlashesBefore (P : Option Char → Prop) [DecidablePred P] :
    (l : List Char) → Decidable (SlashesBefore P l)
  | [] => .isTrue trivial
  | c :: r =>
    @instDecidableAnd (c = '/' → P r.head?) (SlashesBefore P r) _ (decidableSlashesBefore P r)

instance (P : Option Char → Prop) [DecidablePred P] (l : List Char) :
    Decidable (SlashesBefore P l) :=
  decidableSlashesBefore P l

theorem SlashesBefore.and {Q : Option Char → Prop} (hP : SlashesBefore P l)
    (hQ : SlashesBefore Q l) : SlashesBefore (fun next => P next ∧ Q next) l := by
  induction l with
  | nil => trivial
  | cons c l ih => exact ⟨fun hc => ⟨hP.1 hc, hQ.1 hc⟩, ih hP.2 hQ.2⟩

theorem SlashesBefore.imp {Q : Option Char → Prop} (h : ∀ next, P next → Q next)
    (hP : SlashesBefore P l) : SlashesBefore Q l := by
  induction l with
  | nil => trivial
  | cons c l ih => exact ⟨fun hc => h _ (hP.1 hc), ih hP.2⟩

theorem slashesBefore_iff :
    SlashesBefore P l ↔ ∀ before after, l = before ++ '/' :: after → P after.head? := by
  constructor
  · rintro h before after rfl
    exact h.of_append.1 rfl
  · intro h
    induction l with
    | nil => trivial
    | cons c l ih =>
        refine ⟨?_, ih fun before after hl => h (c :: before) after (by rw [hl]; rfl)⟩
        rintro rfl
        exact h [] l rfl

theorem squeezed_iff : Squeezed l ↔ ¬ ['/', '/'] <:+: l := by
  unfold Squeezed
  rw [slashesBefore_iff]
  constructor
  · rintro h ⟨before, after, rfl⟩
    exact h before ('/' :: after) (by simp) rfl
  · rintro h before after rfl hslash
    obtain ⟨after, rfl⟩ := List.head?_eq_some_iff.1 hslash
    exact h ⟨before, after, by simp⟩

/-! ### The canonical form -/

theorem squeezed_squeezeAfter (slash : Bool) (l : List Char) :
    Squeezed (squeezeAfter slash l) ∧
      (slash = true → (squeezeAfter slash l).head? ≠ some '/') := by
  induction l generalizing slash with
  | nil => exact ⟨trivial, by simp [squeezeAfter]⟩
  | cons c l ih =>
      obtain ⟨hbehind, hhead⟩ := ih true
      unfold squeezeAfter
      split
      · next hc =>
          cases slash with
          | true => exact ⟨hbehind, hhead⟩
          | false => exact ⟨⟨fun _ => hhead rfl, hbehind⟩, fun heq => by cases heq⟩
      · next hc => exact ⟨⟨fun heq => absurd heq hc, (ih false).1⟩, fun _ => by simpa using hc⟩

theorem toNat_of_hexValue? {n : Nat} (h : hexValue? c = some n) :
    c.toNat = n + 48 ∧ n < 10 ∨ (c.toNat = n + 55 ∨ c.toNat = n + 87) ∧ 10 ≤ n ∧ n < 16 := by
  simp only [hexValue?] at h
  split at h
  · have hn := Option.some.inj h
    omega
  · split at h
    · have hn := Option.some.inj h
      omega
    · split at h
      · have hn := Option.some.inj h
        omega
      · cases h

theorem hexValue?_lt {n : Nat} (h : hexValue? c = some n) : n < 16 := by
  have hnat := toNat_of_hexValue? h
  omega

theorem upperHex_ne_slash (h : isHexDigit c = true) : upperHex c ≠ '/' := by
  obtain ⟨n, hn⟩ := Option.isSome_iff_exists.1 h
  have hmem := upperHexDigit_mem n (hexValue?_lt hn)
  have hupper : upperHex c = upperHexDigit n := by rw [upperHex, hn]
  rw [hupper]
  intro heq
  rw [heq] at hmem
  exact absurd hmem (by decide)

theorem head?_upcaseEscapes (l : List Char) : (upcaseEscapes l).head? = l.head? := by
  unfold upcaseEscapes
  split
  · rfl
  · split <;> rfl
  · rfl

/-- Raising hex digits leaves slashes where they are. -/
theorem slashesBefore_upcaseEscapes (h : SlashesBefore P l) :
    SlashesBefore P (upcaseEscapes l) := by
  have hpercent : '%' ≠ '/' := by decide
  induction l using upcaseEscapes.induct with
  | case1 => trivial
  | case2 a b r hhex ih =>
      obtain ⟨ha, hb⟩ := Bool.and_eq_true_iff.1 hhex
      rw [upcaseEscapes, if_pos hhex]
      exact ⟨fun hc => absurd hc hpercent, fun hc => absurd hc (upperHex_ne_slash ha),
        fun hc => absurd hc (upperHex_ne_slash hb), ih h.2.2.2⟩
  | case3 a b r hhex ih =>
      rw [upcaseEscapes, if_neg hhex]
      exact ⟨fun hc => absurd hc hpercent, ih h.2⟩
  | case4 c r hr ih =>
      have heq : upcaseEscapes (c :: r) = c :: upcaseEscapes r := by
        rw [upcaseEscapes]
        exact hr
      rw [heq]
      exact ⟨fun hc => by rw [head?_upcaseEscapes]; exact h.1 hc, ih h.2⟩

theorem dropFinalSlash_prefix (l : List Char) : dropFinalSlash l <+: l := by
  unfold dropFinalSlash
  split
  · exact List.prefix_refl l
  · split
    · next s hs => exact ⟨['/'], (dropSuffix?_eq_some.1 hs).symm⟩
    · cases hs : dropSuffix? ['%', '2', 'F'] l with
      | none => exact List.prefix_refl l
      | some s => exact ⟨['%', '2', 'F'], (dropSuffix?_eq_some.1 hs).symm⟩

theorem squeezed_normalizeChars (l : List Char) : Squeezed (normalizeChars l) := by
  obtain ⟨hsqueezed, hhead⟩ := squeezed_squeezeAfter true l
  have hslash : Squeezed ('/' :: squeezeAfter true l) := ⟨fun _ => hhead rfl, hsqueezed⟩
  have hraised : Squeezed (upcaseEscapes ('/' :: squeezeAfter true l)) :=
    slashesBefore_upcaseEscapes hslash
  obtain ⟨r, hr⟩ := dropFinalSlash_prefix (upcaseEscapes ('/' :: squeezeAfter true l))
  rw [← hr] at hraised
  exact hraised.of_prefix (by simp)

/-! ### Slashes in front of groups -/

theorem squeezed_lowerSlashes (carrying : Bool) (h : Squeezed l) :
    Squeezed (lowerSlashes carrying l) ∧
      (carrying = false → l.head? ≠ some '/' → (lowerSlashes carrying l).head? ≠ some '/') := by
  induction l generalizing carrying with
  | nil => cases carrying <;> simp [lowerSlashes, Squeezed, SlashesBefore]
  | cons c l ih =>
      obtain ⟨hbehind, hhead⟩ := ih false h.2
      cases carrying with
      | true =>
          refine ⟨?_, nofun⟩
          rw [lowerSlashes]
          split
          · exact ⟨nofun, (ih true h.2).1⟩
          · split
            · next hc => exact ⟨fun _ => hhead rfl (h.1 hc), hbehind⟩
            · next hc => exact ⟨fun _ => by simpa using hc, fun heq => absurd heq hc, hbehind⟩
      | false =>
          rw [lowerSlashes]
          split
          · next hc =>
              have hslash : c = '/' := by simpa using (Bool.and_eq_true_iff.1 hc).1
              exact ⟨(ih true h.2).1, fun _ hne => absurd (congrArg some hslash) hne⟩
          · exact ⟨⟨fun hc => hhead rfl (h.1 hc), hbehind⟩, fun _ hne => hne⟩

theorem squeezed_raiseFirstSlash (h : Squeezed l) : Squeezed (raiseFirstSlash l) := by
  unfold raiseFirstSlash
  split
  · next hrun =>
      have hopen : l.head? = some '(' := by simpa using (Bool.and_eq_true_iff.1 hrun).1
      simp only
      split
      · next r hr =>
          have hsuffix : Squeezed r := by
            have hdrop : Squeezed (l.dropWhile (· = '(')) := h.of_suffix (List.dropWhile_suffix _)
            rw [hr] at hdrop
            exact hdrop.2
          have hopens : '/' ∉ l.takeWhile (· = '(') := by
            intro hmem
            exact absurd (List.all_eq_true.1 List.all_takeWhile '/' hmem) (by decide)
          have hbehind : Squeezed (l.takeWhile (· = '(') ++ r) := hsuffix.append hopens
          refine ⟨fun _ => ?_, hbehind⟩
          obtain ⟨l', rfl⟩ := List.head?_eq_some_iff.1 hopen
          simp
      · exact h
  · exact h

/-- No slash follows a slash in a declared path. -/
theorem squeezed_normalizeDeclaredPath (path : String) :
    Squeezed (normalizeDeclaredPath path).toList := by
  have hraised := squeezed_raiseFirstSlash
    (squeezed_lowerSlashes false (squeezed_normalizeChars path.toList)).1
  unfold normalizeDeclaredPath
  simp only
  split
  · exact ⟨nofun, trivial⟩
  · rwa [String.toList_ofList]

end RouteEngine.Escape
