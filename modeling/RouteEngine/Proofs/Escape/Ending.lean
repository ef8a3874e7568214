import RouteEngine.Proofs.Escape.FinalSlash

/-!
What a declared path ends in. An ending without slashes, parentheses and escapes that no final
slash is dropped from is left in its place by every pass that makes a declared path canonical
(`KeptEnding.normalizeDeclaredPath`). A format that is put at the end of a path is such an ending.
-/

namespace RouteEngine.Escape

open Text

variable {e l : List Char}

/-- Nothing in the text is changed when paths that end in it are made canonical. -/
structure KeptEnding (e : List Char) : Prop where
  plain : ∀ c ∈ e, c ≠ '/' ∧ c ≠ '(' ∧ c ≠ '%'
  /-- It is no part of an escape that begins in front of it. -/
  begins : ∀ c ∈ e.head?, isHexDigit c = false
  /-- It is there, and it is no final slash, not even an escaped one. -/
  ends : ∃ c ∈ e.getLast?, c ≠ '/' ∧ c ≠ 'F'

theorem squeezeAfter_of_plain (h : ∀ c ∈ e, c ≠ '/') (slash : Bool) : squeezeAfter slash e = e := by
  induction e generalizing slash with
  | nil => rfl
  | cons c e ih =>
      obtain ⟨hc, he⟩ := List.forall_mem_cons.1 h
      rw [squeezeAfter, if_neg hc, ih he]

theorem upcaseEscapes_of_plain (h : ∀ c ∈ e, c ≠ '%') : upcaseEscapes e = e := by
  induction e with
  | nil => rfl
  | cons c e ih =>
      obtain ⟨hc, he⟩ := List.forall_mem_cons.1 h
      rw [upcaseEscapes_cons hc, ih he]

theorem lowerSlashes_of_plain (h : ∀ c ∈ e, c ≠ '/') : lowerSlashes false e = e := by
  induction e with
  | nil => rfl
  | cons c e ih =>
      obtain ⟨hc, he⟩ := List.forall_mem_cons.1 h
      rw [lowerSlashes, decide_eq_false hc, Bool.false_and, if_neg Bool.false_ne_true, ih he]

namespace KeptEnding

variable (he : KeptEnding e)

include he

theorem ne_nil : e ≠ [] := by
  rintro rfl
  obtain ⟨c, hc, -⟩ := he.ends
  cases hc

theorem squeezeAfter (slash : Bool) (h : e <:+ l) : e <:+ squeezeAfter slash l := by
  obtain ⟨l, rfl⟩ := h
  rw [squeezeAfter_append_slashBehind, squeezeAfter_of_plain fun c hc => (he.plain c hc).1]
  exact List.suffix_append _ _

theorem upcaseEscapes (h : e <:+ l) : e <:+ upcaseEscapes l := by
  obtain ⟨l, rfl⟩ := h
  rw [upcaseEscapes_append he.begins, upcaseEscapes_of_plain fun c hc => (he.plain c hc).2.2]
  exact List.suffix_append _ _

theorem endsPlain (h : e <:+ l) : EndsPlain l := by
  obtain ⟨c, hc, hslash, hdigit⟩ := he.ends
  have hlast : l.getLast? = some c := by
    obtain ⟨l, rfl⟩ := h
    rw [List.getLast?_append, Option.mem_def.1 hc, Option.some_or]
  refine .inr ⟨fun hends => ?_, fun hends => ?_⟩
  · rw [List.singleton_suffix_iff_getLast?_eq_some, hlast] at hends
    exact hslash (Option.some.inj hends)
  · obtain ⟨l, rfl⟩ := hends
    rw [List.getLast?_append] at hlast
    exact hdigit (Option.some.inj hlast).symm

theorem normalizeChars (h : e <:+ l) : e <:+ normalizeChars l := by
  have hraised : e <:+ Escape.upcaseEscapes ('/' :: Escape.squeezeAfter true l) :=
    he.upcaseEscapes ((he.squeezeAfter true h).trans (List.suffix_cons _ _))
  rwa [Escape.normalizeChars, dropFinalSlash_of_endsPlain (he.endsPlain hraised)]

theorem lowerSlashes (carrying : Bool) (h : e <:+ l) : e <:+ lowerSlashes carrying l := by
  obtain ⟨l, rfl⟩ := h
  induction l generalizing carrying with
  | nil =>
      have hplain : Escape.lowerSlashes false e = e :=
        lowerSlashes_of_plain fun c hc => (he.plain c hc).1
      cases carrying with
      | false => exact ⟨[], hplain.symm⟩
      | true =>
          -- A slash that is carried up to the ending is put in front of it.
          obtain ⟨c, e', rfl⟩ := List.exists_cons_of_ne_nil he.ne_nil
          obtain ⟨hslash, hopen, -⟩ := he.plain c List.mem_cons_self
          have hrest : Escape.lowerSlashes false e' = e' :=
            lowerSlashes_of_plain fun d hd => (he.plain d (List.mem_cons_of_mem _ hd)).1
          rw [List.nil_append, Escape.lowerSlashes, if_neg hopen, if_neg hslash, hrest]
          exact List.suffix_cons _ _
  | cons c l ih =>
      cases carrying with
      | false =>
          rw [List.cons_append, Escape.lowerSlashes]
          split
          · exact ih true
          · exact (ih false).trans (List.suffix_cons _ _)
      | true =>
          rw [List.cons_append, Escape.lowerSlashes]
          split
          · exact (ih true).trans (List.suffix_cons _ _)
          · split
            · exact (ih false).trans (List.suffix_cons _ _)
            · exact ((ih false).trans (List.suffix_cons _ _)).trans (List.suffix_cons _ _)

theorem raiseFirstSlash (h : e <:+ l) : e <:+ raiseFirstSlash l := by
  unfold Escape.raiseFirstSlash
  split
  · simp only
    split
    · next r hr =>
        have hslash : '/' :: r <:+ l := hr ▸ List.dropWhile_suffix _
        -- The slash that is moved stands in front of the ending, which has none.
        have hrest : e <:+ r := by
          rcases List.suffix_or_suffix_of_suffix h hslash with hsuffix | hsuffix
          · rcases List.suffix_cons_iff.1 hsuffix with rfl | hsuffix
            · exact absurd rfl (he.plain '/' List.mem_cons_self).1
            · exact hsuffix
          · exact absurd rfl (he.plain '/' (hsuffix.subset List.mem_cons_self)).1
        exact hrest.trans (List.suffix_append _ _)
    · exact h
  · exact h

theorem normalizeDeclaredPath (h : e <:+ l) :
    e <:+ (normalizeDeclaredPath (String.ofList l)).toList := by
  have hraised := he.raiseFirstSlash (he.lowerSlashes false (he.normalizeChars h))
  unfold Escape.normalizeDeclaredPath
  rw [String.toList_ofList]
  simp only
  split
  · next hempty =>
      rw [List.isEmpty_iff] at hempty
      rw [hempty] at hraised
      exact absurd (List.suffix_nil.1 hraised) he.ne_nil
  · rwa [String.toList_ofList]

end KeptEnding

-- The slash in front of a group goes into it, but not past what the group ends in.
example : Escape.normalizeDeclaredPath "/posts//(.:format)" = "/posts(/.:format)" := by
  decide +kernel

end RouteEngine.Escape
