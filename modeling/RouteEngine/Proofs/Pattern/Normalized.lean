import RouteEngine.Proofs.Escape.FinalSlash
import RouteEngine.Proofs.Pattern.Mentions

/-!
What the canonical form of a declared path leaves alone. The parentheses of a text and its markers
with their names are its signs; all else in it is literal. Nothing but the signs decides which
names are read off a pattern, or why none are (`parseNames_of_signs`). The passes that bring a path
into its canonical form look at characters only, and they drop, add, move or rewrite literal ones.
Where a pass begins right behind a marker it must not touch the name either, so the texts in front
of a pass and behind it are compared by `Alike` and not by their signs alone.
-/

namespace RouteEngine

/-- The same complaint about another pattern text. -/
def PatternError.inPattern (source : String) : PatternError → PatternError
  | unbalancedGroup _ => unbalancedGroup source
  | missingName _ marker => missingName source marker
  | multipleGlobs _ => multipleGlobs source
  | captureAfterGlob _ name => captureAfterGlob source name
  | reservedName _ name => reservedName source name
  | unknownRequirement _ name => unknownRequirement source name
  | invalidRequirement name fault => invalidRequirement name fault

end RouteEngine

namespace RouteEngine.Pattern

open Escape
open Text (isNameChar isHexDigit)

/-! ### Signs -/

/-- The parentheses of a text and its markers, each with its name. -/
def signs (cs : List Char) : List Token := dropText (tokens cs)

variable {c : Char} {l m : List Char} {source source' : String}

theorem signs_cons (hc : isPlainChar c = true) (r : List Char) : signs (c :: r) = signs r := by
  rw [signs, tokens_cons hc, dropText_pushChar, signs]

theorem signs_openGroup (r : List Char) : signs ('(' :: r) = .openGroup :: signs r :=
  rfl

theorem signs_closeGroup (r : List Char) : signs (')' :: r) = .closeGroup :: signs r :=
  rfl

theorem signs_marker (kind : CaptureKind) (r : List Char) :
    signs (kind.marker :: r) = markerToken kind (r.takeWhile isNameChar) :: signs r := by
  rw [signs, tokens_marker, dropText_pushMarker, signs]

/-! ### What is read off the signs -/

theorem firstOffence_of_signs (h : signs l = signs m) (depth : Nat) :
    firstOffence depth (tokens l) = firstOffence depth (tokens m) := by
  rw [← firstOffence_dropText, ← firstOffence_dropText depth (tokens m)]
  exact congrArg (firstOffence depth) h

theorem mentions_of_signs (h : signs l = signs m) (depth : Nat) :
    mentions depth l = mentions depth m := by
  rw [← tokenMentions_tokens, ← tokenMentions_tokens, ← tokenMentions_dropText,
    ← tokenMentions_dropText depth (tokens m)]
  exact congrArg (tokenMentions depth) h

theorem exists_parseTree_of_signs (h : signs source.toList = signs source'.toList)
    (hs : ∃ tree, parseTree source = .ok tree) : ∃ tree, parseTree source' = .ok tree := by
  rw [exists_parseTree_iff, ← inOrder_iff, ← firstOffence_eq_none] at hs ⊢
  rwa [← firstOffence_of_signs h]

theorem parseTree_error_of_signs (h : signs source.toList = signs source'.toList)
    {e : PatternError} (he : parseTree source = .error e) :
    parseTree source' = .error (e.inPattern source') := by
  obtain ⟨o, ho, rfl⟩ := parseTree_eq_error.1 he
  refine parseTree_eq_error.2 ⟨o, ?_, by cases o <;> rfl⟩
  rw [← firstOffence_eq_some] at ho ⊢
  rwa [← firstOffence_of_signs h]

theorem Refused.inPattern {ms : List Mention} {e : PatternError} (h : Refused source ms e)
    (source' : String) : Refused source' ms (e.inPattern source') := by
  cases h with
  | reserved h => exact .reserved h
  | globs hnames h => exact .globs hnames h
  | behind hnames hglobs h => exact .behind hnames hglobs h

/-- Patterns with the same signs have the same names, or are refused for the same reason. -/
theorem parseNames_of_signs (h : signs source.toList = signs source'.toList) :
    parseNames source' = (parseNames source).mapError (PatternError.inPattern source') := by
  have hmentions := mentions_of_signs h 0
  rw [parseNames, parseNames]
  cases hread : readTree source with
  | ok tree =>
      obtain ⟨htree, hpermitted⟩ := readTree_eq_ok.1 hread
      obtain ⟨tree', htree'⟩ := exists_parseTree_of_signs h ⟨tree, htree⟩
      have hread' := readTree_eq_ok.2 ⟨htree', hmentions ▸ hpermitted⟩
      have hnames : tree'.names = tree.names := by
        rw [names_of_parseTree htree', names_of_parseTree htree, hmentions]
      rw [hread']
      exact congrArg Except.ok hnames
  | error e =>
      have hread' : readTree source' = .error (e.inPattern source') := by
        refine readTree_eq_error.2 ?_
        rcases readTree_eq_error.1 hread with he | ⟨htree, hrefused⟩
        · exact .inl (parseTree_error_of_signs h he)
        · exact .inr ⟨exists_parseTree_of_signs h htree, hmentions ▸ hrefused.inPattern source'⟩
      rw [hread']
      rfl

/-! ### Texts that are alike -/

/-- Whatever is put in front of the two texts, the signs of both are the same. -/
structure Alike (l m : List Char) : Prop where
  signs : signs l = signs m
  /-- What a marker in front would take for its name. -/
  name : l.takeWhile isNameChar = m.takeWhile isNameChar

theorem Alike.cons (h : Alike l m) (c : Char) : Alike (c :: l) (c :: m) := by
  refine ⟨?_, by rw [List.takeWhile_cons, List.takeWhile_cons, h.name]⟩
  obtain rfl | rfl | ⟨kind, rfl⟩ | hc := char_cases c
  · rw [signs_openGroup, signs_openGroup, h.signs]
  · rw [signs_closeGroup, signs_closeGroup, h.signs]
  · rw [signs_marker, signs_marker, h.signs, h.name]
  · rw [signs_cons hc, signs_cons hc, h.signs]

theorem Alike.append_left (h : Alike l m) (r : List Char) : Alike (r ++ l) (r ++ m) := by
  induction r with
  | nil => exact h
  | cons c r ih => exact ih.cons c

/-- No name runs on past a literal character that is none of a name, such as a slash. -/
theorem alike_cons (hplain : isPlainChar c = true) (hc : isNameChar c = false)
    (h : signs l = signs m) : Alike (c :: l) (c :: m) := by
  refine ⟨by rw [signs_cons hplain, signs_cons hplain, h], ?_⟩
  rw [List.takeWhile_cons_of_neg (by simp [hc]), List.takeWhile_cons_of_neg (by simp [hc])]

/-! ### Passes over a path -/

theorem alike_squeezeAfter (l : List Char) :
    signs (squeezeAfter true l) = signs l ∧ Alike (squeezeAfter false l) l := by
  induction l with
  | nil => exact ⟨rfl, rfl, rfl⟩
  | cons c l ih =>
      obtain ⟨hbehind, hfree⟩ := ih
      simp only [squeezeAfter]
      split
      · next hc =>
          subst hc
          exact ⟨hbehind.trans (signs_cons rfl l).symm, alike_cons rfl rfl hbehind⟩
      · exact ⟨(hfree.cons c).signs, hfree.cons c⟩

theorem isPlainChar_of_isHexDigit (h : isHexDigit c = true) : isPlainChar c = true :=
  isPlainChar_of (by decide) h

theorem alike_upcaseEscapes (l : List Char) : Alike (upcaseEscapes l) l := by
  induction l using escapes_induction with
  | nil => exact ⟨rfl, rfl⟩
  | escape a b r ha hb ih =>
      rw [upcaseEscapes_escape ha hb]
      refine alike_cons rfl rfl ?_
      rw [signs_cons (isPlainChar_of_isHexDigit (isHexDigit_upperHex ha)),
        signs_cons (isPlainChar_of_isHexDigit (isHexDigit_upperHex hb)),
        signs_cons (isPlainChar_of_isHexDigit ha), signs_cons (isPlainChar_of_isHexDigit hb),
        ih.signs]
  | plain c r hc ih =>
      rw [upcaseEscapes_plain hc]
      exact ih.cons c

theorem signs_dropFinalSlash (l : List Char) : signs (dropFinalSlash l) = signs l := by
  have hcut : ∀ s e, Alike [] e → signs s = signs (s ++ e) := by
    intro s e he
    simpa using (he.append_left s).signs
  by_cases h : EndsPlain l
  · rw [dropFinalSlash_of_endsPlain h]
  · rcases exists_append_of_not_endsPlain h with ⟨s, hs, rfl⟩ | ⟨s, rfl⟩
    · rw [dropFinalSlash_append_slash hs]
      apply hcut
      exact ⟨rfl, rfl⟩
    · rw [dropFinalSlash_append_escaped]
      apply hcut
      exact ⟨rfl, rfl⟩

theorem signs_normalizeChars (path : List Char) : signs (normalizeChars path) = signs path := by
  rw [normalizeChars, signs_dropFinalSlash, (alike_upcaseEscapes _).signs, signs_cons rfl,
    (alike_squeezeAfter path).1]

/-- A slash that is carried is written before any character of a name. -/
theorem takeWhile_lowerSlashes (l : List Char) :
    (lowerSlashes true l).takeWhile isNameChar = [] := by
  cases l with
  | nil => rfl
  | cons c l =>
      rw [lowerSlashes]
      split
      · rfl
      · split <;> rfl

theorem alike_lowerSlashes (l : List Char) :
    signs (lowerSlashes true l) = signs l ∧ Alike (lowerSlashes false l) l := by
  induction l with
  | nil => exact ⟨rfl, rfl, rfl⟩
  | cons c l ih =>
      obtain ⟨hcarried, hfree⟩ := ih
      constructor
      · rw [lowerSlashes]
        split
        · next hc => rw [hc, signs_openGroup, signs_openGroup, hcarried]
        · split
          · next hc => rw [hc, signs_cons rfl, signs_cons rfl, hfree.signs]
          · rw [signs_cons rfl, (hfree.cons c).signs]
      · rw [lowerSlashes]
        split
        · next hc =>
            obtain rfl : c = '/' := by simpa using (Bool.and_eq_true_iff.1 hc).1
            exact ⟨hcarried.trans (signs_cons rfl l).symm, takeWhile_lowerSlashes l⟩
        · exact hfree.cons c

theorem signs_append_opens (h : signs l = signs m) {opens : List Char}
    (hopens : ∀ c ∈ opens, c = '(') : signs (opens ++ l) = signs (opens ++ m) := by
  induction opens with
  | nil => exact h
  | cons c opens ih =>
      obtain ⟨rfl, hrest⟩ := List.forall_mem_cons.1 hopens
      rw [List.cons_append, List.cons_append, signs_openGroup, signs_openGroup, ih hrest]

theorem signs_raiseFirstSlash (path : List Char) : signs (raiseFirstSlash path) = signs path := by
  unfold raiseFirstSlash
  split
  · simp only
    split
    · next r hr =>
        have hopens : ∀ c ∈ path.takeWhile (· = '('), c = '(' := fun c hc => by
          simpa using List.all_eq_true.1 List.all_takeWhile c hc
        have hpath : path.takeWhile (· = '(') ++ '/' :: r = path := by
          rw [← hr, List.takeWhile_append_dropWhile]
        rw [List.cons_append, signs_cons rfl]
        calc signs (path.takeWhile (· = '(') ++ r)
            = signs (path.takeWhile (· = '(') ++ '/' :: r) :=
              signs_append_opens (signs_cons rfl r).symm hopens
          _ = signs path := congrArg signs hpath
    · rfl
  · rfl

theorem signs_normalizeDeclaredPath (path : String) :
    signs (normalizeDeclaredPath path).toList = signs path.toList := by
  have hraised : signs (raiseFirstSlash (lowerSlashes false (normalizeChars path.toList))) =
      signs path.toList := by
    rw [signs_raiseFirstSlash, (alike_lowerSlashes _).2.signs, signs_normalizeChars]
  unfold normalizeDeclaredPath
  simp only
  split
  · next hempty =>
      rw [List.isEmpty_iff.1 hempty] at hraised
      exact hraised
  · rwa [String.toList_ofList]

/-- The canonical form of a declared path has the parentheses, the markers and the names of the
path, in the same order. So the same names are read off it, or it is refused for the same reason,
with its own text in the place of the path. -/
theorem parseNames_normalizeDeclaredPath (path : String) :
    signs (normalizeDeclaredPath path).toList = signs path.toList ∧
      parseNames (normalizeDeclaredPath path) =
        (parseNames path).mapError (PatternError.inPattern (normalizeDeclaredPath path)) := by
  have hsigns := signs_normalizeDeclaredPath path
  exact ⟨hsigns, parseNames_of_signs hsigns.symm⟩

end RouteEngine.Pattern
