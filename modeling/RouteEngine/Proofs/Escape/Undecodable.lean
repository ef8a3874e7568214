import RouteEngine.Proofs.Escape.Scan

/-!
Whether a path stands for a text. Its slashes stand between the bytes of characters, so that it
does exactly when each stretch between two slashes does; and a stretch stands for the same bytes
whatever the case of its hex digits. So nothing that the canonical form of a path changes decides
about that.
-/

namespace RouteEngine.Escape

open Text

/-- The bytes that the path stands for are those of a text. -/
def Decodes (path : List Char) : Prop := Utf8.IsText (unescapeBytes path)

variable {l m r : List Char}

theorem decodes_iff : Decodes l ↔ ∃ s, unescapeChars l = some s := Utf8.isText_iff

theorem decodes_nil : Decodes [] := Utf8.isText_nil

/-- A path may be cut at what stands for a slash. -/
theorem decodes_of_bytes (h : unescapeBytes m = unescapeBytes l ++ 0x2F :: unescapeBytes r) :
    Decodes m ↔ Decodes l ∧ Decodes r := by
  rw [Decodes, h]
  exact Utf8.isText_append_cons (by decide)

theorem decodes_append_cons : Decodes (l ++ '/' :: r) ↔ Decodes l ∧ Decodes r := by
  refine decodes_of_bytes ?_
  rw [unescapeBytes_append isHexDigit_head_slash, unescapeBytes_cons (by decide)]
  rfl

theorem decodes_append_escaped : Decodes (l ++ ['%', '2', 'F']) ↔ Decodes l := by
  have hcut : Decodes (l ++ ['%', '2', 'F']) ↔ Decodes l ∧ Decodes [] := by
    refine decodes_of_bytes ?_
    rw [unescapeBytes_append isHexDigit_head_percent]
    rfl
  rw [hcut, and_iff_left decodes_nil]

theorem decodes_upcaseEscapes : Decodes (upcaseEscapes l) ↔ Decodes l := by
  rw [Decodes, unescapeBytes_upcaseEscapes]
  rfl

theorem decodes_squeezeAfter (r : List Char) :
    (∀ l, Decodes (l ++ squeezeAfter false r) ↔ Decodes (l ++ r)) ∧
      (Decodes (squeezeAfter true r) ↔ Decodes r) := by
  induction r with
  | nil => exact ⟨fun _ => .rfl, .rfl⟩
  | cons c r ih =>
      obtain ⟨ihPlain, ihSlash⟩ := ih
      by_cases hc : c = '/'
      · subst hc
        constructor
        · intro l
          rw [squeezeAfter, if_pos rfl, if_neg Bool.false_ne_true, decodes_append_cons,
            decodes_append_cons, ihSlash]
        · rw [squeezeAfter, if_pos rfl, if_pos rfl, ihSlash, ← List.nil_append ('/' :: r),
            decodes_append_cons, and_iff_right decodes_nil]
      · constructor
        · intro l
          rw [squeezeAfter, if_neg hc, List.append_cons, ihPlain, ← List.append_cons]
        · rw [squeezeAfter, if_neg hc, ← List.singleton_append, ihPlain, List.singleton_append]

theorem decodes_dropFinalSlash (l : List Char) : Decodes (dropFinalSlash l) ↔ Decodes l := by
  unfold dropFinalSlash
  split
  · exact .rfl
  · split
    · next s hs =>
        rw [dropSuffix?_eq_some.1 hs, decodes_append_cons, and_iff_left decodes_nil]
    · cases hs : dropSuffix? ['%', '2', 'F'] l with
      | none => exact .rfl
      | some s =>
          rw [dropSuffix?_eq_some.1 hs, decodes_append_escaped]
          rfl

/-- The canonical form of a path stands for a text exactly when the path does. -/
theorem decodes_normalizeChars (l : List Char) : Decodes (normalizeChars l) ↔ Decodes l := by
  rw [normalizeChars, decodes_dropFinalSlash, decodes_upcaseEscapes,
    ← List.nil_append ('/' :: squeezeAfter true l), decodes_append_cons,
    and_iff_right decodes_nil, (decodes_squeezeAfter l).2]

end RouteEngine.Escape
