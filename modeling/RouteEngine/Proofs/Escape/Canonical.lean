import RouteEngine.Escape.Path
import RouteEngine.Proofs.Escape.RoundTrip
import RouteEngine.Proofs.Text.Split

/-!
Paths that are in canonical form already. A path that was put together from pieces, each of them a
slash and a text without slashes, has no slash to be dropped, and what was escaped has no hex digit
to be raised. What may still go is an escaped slash at the very end.
-/

namespace RouteEngine.Escape

open Text

/-! ### Hex digits -/

theorem upperHex_upperHexDigit {n : Nat} (hn : n < 16) :
    upperHex (upperHexDigit n) = upperHexDigit n := by
  rw [upperHex, hexValue?_upperHexDigit n hn]

theorem isHexDigit_upperHexDigit {n : Nat} (hn : n < 16) :
    isHexDigit (upperHexDigit n) = true := by
  rw [isHexDigit, hexValue?_upperHexDigit n hn]
  rfl

theorem upcaseEscapes_escapeByte_append (b : UInt8) (r : List Char) :
    upcaseEscapes (escapeByte b ++ r) = escapeByte b ++ upcaseEscapes r := by
  obtain ⟨hhigh, hlow⟩ := hex_lt b
  simp only [escapeByte, List.cons_append, List.nil_append, upcaseEscapes,
    isHexDigit_upperHexDigit hhigh, isHexDigit_upperHexDigit hlow,
    upperHex_upperHexDigit hhigh, upperHex_upperHexDigit hlow, Bool.and_self, if_true]

theorem upcaseEscapes_cons {c : Char} (hc : c ≠ '%') (r : List Char) :
    upcaseEscapes (c :: r) = c :: upcaseEscapes r := by
  conv => lhs; unfold upcaseEscapes
  split
  · simp at *
  · next heq =>
      cases heq
      exact absurd rfl hc
  · next heq =>
      cases heq
      rfl

theorem upcaseEscapes_flatMap_escapeByte (bs : List UInt8) (r : List Char) :
    upcaseEscapes (bs.flatMap escapeByte ++ r) = bs.flatMap escapeByte ++ upcaseEscapes r := by
  induction bs with
  | nil => rfl
  | cons b bs ih =>
      rw [List.flatMap_cons, List.append_assoc, upcaseEscapes_escapeByte_append, ih,
        List.append_assoc]

theorem Spells.upcaseEscapes_eq {t s : List Char} (h : Spells t s) : upcaseEscapes t = t := by
  induction h with
  | nil => rfl
  | plain hc _ ih => rw [upcaseEscapes_cons hc, ih]
  | escaped c _ ih => rw [upcaseEscapes_flatMap_escapeByte, ih]

/-! ### Pieces between slashes -/

/-- A text that may stand between two slashes of a path: not empty, its own slashes escaped. -/
structure IsPiece (piece : List Char) : Prop where
  ne_nil : piece ≠ []
  no_slash : '/' ∉ piece
  spells : ∃ text, Spells piece text

theorem IsPiece.cons {c : Char} {piece : List Char} (hslash : c ≠ '/') (hpercent : c ≠ '%')
    (h : IsPiece piece) : IsPiece (c :: piece) := by
  obtain ⟨text, hspells⟩ := h.spells
  refine ⟨List.cons_ne_nil _ _, fun hmem => ?_, c :: text, .plain hpercent hspells⟩
  rcases List.mem_cons.1 hmem with heq | hmem
  · exact hslash heq.symm
  · exact h.no_slash hmem

theorem isPiece_escapeWith {s : List Char} (hs : s ≠ []) : IsPiece (escapeWith isSegmentSafe s) :=
  ⟨escapeWith_ne_nil hs, not_mem_escapeWith (fun _ => by decide) (by decide +kernel),
    s, .escapeWith (by decide) s⟩

theorem squeezeAfter_append {piece : List Char} (hslash : '/' ∉ piece) (hne : piece ≠ [])
    (slash : Bool) (r : List Char) :
    squeezeAfter slash (piece ++ r) = piece ++ squeezeAfter false r := by
  induction piece generalizing slash with
  | nil => exact absurd rfl hne
  | cons c piece ih =>
      simp only [List.mem_cons, not_or] at hslash
      rw [List.cons_append, squeezeAfter, if_neg (Ne.symm hslash.1), List.cons_append]
      cases piece with
      | nil => rfl
      | cons d piece => rw [ih hslash.2 (List.cons_ne_nil _ _) false]

/-- Pieces with a slash in front of each. -/
def slashed (pieces : List (List Char)) : List Char := pieces.flatMap fun piece => '/' :: piece

theorem slashed_cons (piece : List Char) (pieces : List (List Char)) (r : List Char) :
    slashed (piece :: pieces) ++ r = '/' :: (piece ++ (slashed pieces ++ r)) := by
  simp [slashed]

theorem squeezeAfter_slashed {pieces : List (List Char)} {extra : List Char}
    (h : ∀ piece ∈ pieces, IsPiece piece) (hextra : '/' ∉ extra) :
    squeezeAfter false (slashed pieces ++ extra) = slashed pieces ++ extra := by
  induction pieces with
  | nil =>
      cases extra with
      | nil => rfl
      | cons c extra =>
          have hend := squeezeAfter_append hextra (List.cons_ne_nil c extra) false []
          rw [List.append_nil] at hend
          exact hend.trans (List.append_nil _)
  | cons piece pieces ih =>
      obtain ⟨hpiece, hpieces⟩ := List.forall_mem_cons.1 h
      rw [slashed_cons, squeezeAfter, if_pos rfl, if_neg Bool.false_ne_true,
        squeezeAfter_append hpiece.no_slash hpiece.ne_nil, ih hpieces]

theorem getLast?_slashed {pieces : List (List Char)} {extra : List Char}
    (h : ∀ piece ∈ pieces, piece ≠ [] ∧ piece.getLast? ≠ some '/')
    (hextra : extra.getLast? ≠ some '/') : (slashed pieces ++ extra).getLast? ≠ some '/' := by
  induction pieces with
  | nil => exact hextra
  | cons piece pieces ih =>
      obtain ⟨⟨hne, hpiece⟩, hpieces⟩ := List.forall_mem_cons.1 h
      have ih := ih hpieces
      have hcons : slashed (piece :: pieces) ++ extra =
          ('/' :: piece) ++ (slashed pieces ++ extra) := slashed_cons piece pieces extra
      rw [hcons, List.getLast?_append]
      cases hlast : (slashed pieces ++ extra).getLast? with
      | some c =>
          rw [hlast] at ih
          exact ih
      | none => rwa [Option.none_or, List.getLast?_cons_of_ne_nil hne]

theorem spells_slashed {pieces : List (List Char)} {extra more : List Char}
    (h : ∀ piece ∈ pieces, IsPiece piece) (hextra : Spells extra more) :
    ∃ text, Spells (slashed pieces ++ extra) text := by
  induction pieces with
  | nil => exact ⟨more, hextra⟩
  | cons piece pieces ih =>
      obtain ⟨hpiece, hpieces⟩ := List.forall_mem_cons.1 h
      obtain ⟨text, hpiece⟩ := hpiece.spells
      obtain ⟨rest, hrest⟩ := ih hpieces
      rw [slashed_cons]
      exact ⟨_, .plain (by decide) (hpiece.append hrest)⟩

/-- A path of pieces stands for some text, and it is in canonical form unless it ends in an
escaped slash. -/
theorem canonical_slashed {pieces : List (List Char)} {extra : List Char}
    (h : ∀ piece ∈ pieces, IsPiece piece) (hne : pieces ≠ []) (hextra : extra = [] ∨ IsPiece extra)
    (hend : ¬ ['%', '2', 'F'] <:+ slashed pieces ++ extra) :
    normalizeChars (slashed pieces ++ extra) = slashed pieces ++ extra ∧
      ∃ text, Spells (slashed pieces ++ extra) text := by
  obtain ⟨hslash, more, hmore⟩ : '/' ∉ extra ∧ ∃ more, Spells extra more := by
    rcases hextra with rfl | hpiece
    · exact ⟨by simp, [], .nil⟩
    · exact ⟨hpiece.no_slash, hpiece.spells⟩
  obtain ⟨text, hspells⟩ := spells_slashed h hmore
  -- The first slash is put there by the canonical form, and the one that was there is dropped.
  have hsqueezed :
      '/' :: squeezeAfter true (slashed pieces ++ extra) = slashed pieces ++ extra := by
    have hsame := squeezeAfter_slashed h hslash
    cases pieces with
    | nil => exact absurd rfl hne
    | cons piece pieces =>
        rw [slashed_cons, squeezeAfter, if_pos rfl, if_neg Bool.false_ne_true] at hsame
        rw [slashed_cons, squeezeAfter, if_pos rfl, if_pos rfl]
        exact hsame
  have hlast : ¬ ['/'] <:+ slashed pieces ++ extra := by
    rw [List.singleton_suffix_iff_getLast?_eq_some]
    refine getLast?_slashed (fun piece hpiece => ⟨(h piece hpiece).ne_nil, fun hend => ?_⟩)
      fun hend => hslash (List.mem_of_getLast? hend)
    exact (h piece hpiece).no_slash (List.mem_of_getLast? hend)
  refine ⟨?_, text, hspells⟩
  rw [normalizeChars, hsqueezed, hspells.upcaseEscapes_eq, dropFinalSlash]
  split
  · rfl
  · rw [dropSuffix?_eq_none hlast, dropSuffix?_eq_none hend]
    rfl

end RouteEngine.Escape
