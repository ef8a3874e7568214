import RouteEngine.Proofs.Escape.RoundTrip
import RouteEngine.Text.Split

/-!
What escaped texts look like. Whatever a text says, escaping it leaves printable ASCII in which a
percent sign stands only in front of two upper-case digits; this is kept when escaped texts are
put one behind another, so a text is dealt with character by character and an escape byte by byte
(`wellEscaped_escapeWith`). Escaping a path is escaping the pieces between its slashes
(`escapeWith_pieces`).
-/

namespace RouteEngine.Escape

open Text

structure WellEscaped (t : List Char) : Prop where
  percent : ∀ before after, t = before ++ '%' :: after → ∃ a b rest, after = a :: b :: rest ∧
    a ∈ "0123456789ABCDEF".toList ∧ b ∈ "0123456789ABCDEF".toList
  printable : ∀ c ∈ t, 0x20 < c.toNat ∧ c.toNat < 0x7F

namespace WellEscaped

theorem nil : WellEscaped [] where
  percent before after h := by simp at h
  printable := by simp

/-- The digits of an escape stand in the same text as its percent sign. -/
theorem append {t u : List Char} (ht : WellEscaped t) (hu : WellEscaped u) :
    WellEscaped (t ++ u) where
  percent before after h := by
    obtain ⟨mid, hbefore, hu'⟩ | ⟨mid, ht', hafter⟩ := List.append_eq_append_iff.1 h
    · exact hu.percent mid after hu'
    · cases mid with
      | nil => exact hu.percent [] after hafter.symm
      | cons c mid =>
          obtain ⟨rfl, rfl⟩ := List.cons.inj hafter
          obtain ⟨a, b, rest, rfl, ha, hb⟩ := ht.percent before mid ht'
          exact ⟨a, b, rest ++ u, rfl, ha, hb⟩
  printable := List.forall_mem_append.2 ⟨ht.printable, hu.printable⟩

theorem singleton {c : Char} (hc : c ≠ '%') (hprintable : 0x20 < c.toNat ∧ c.toNat < 0x7F) :
    WellEscaped [c] where
  percent before after h := by
    have hmem : '%' ∈ [c] := h ▸ by simp
    exact absurd (List.mem_singleton.1 hmem).symm hc
  printable := by simpa using hprintable

end WellEscaped

theorem printable_of_mem_digits :
    ∀ d ∈ "%0123456789ABCDEF".toList, 0x20 < d.toNat ∧ d.toNat < 0x7F := by
  simp

theorem percent_not_mem_digits : '%' ∉ "0123456789ABCDEF".toList := by
  decide +kernel

theorem wellEscaped_escapeByte (b : UInt8) : WellEscaped (escapeByte b) where
  percent before after h := by
    obtain ⟨hhigh, hlow⟩ := hex_lt b
    have hx := upperHexDigit_mem _ hhigh
    have hy := upperHexDigit_mem _ hlow
    cases before with
    | nil =>
        cases h
        exact ⟨_, _, [], rfl, hx, hy⟩
    | cons c before =>
        -- A percent sign behind the first character would be one of the two digits.
        have hmem : '%' ∈ [upperHexDigit (b.toNat / 16), upperHexDigit (b.toNat % 16)] := by
          rw [(List.cons.inj h).2]
          simp
        simp only [List.mem_cons, List.not_mem_nil, or_false] at hmem
        rcases hmem with heq | heq
        · rw [← heq] at hx
          exact absurd hx percent_not_mem_digits
        · rw [← heq] at hy
          exact absurd hy percent_not_mem_digits
  printable c hc := printable_of_mem_digits c (mem_escapeByte hc)

/-- The safe characters of all three classes are printable, and the percent sign is in none. -/
theorem printable_of_isFragmentSafe {c : Char} (hc : isFragmentSafe c = true) :
    c ≠ '%' ∧ 0x20 < c.toNat ∧ c.toNat < 0x7F := by
  by_cases hslash : c = '/'
  · subst hslash
    decide
  by_cases hquestion : c = '?'
  · subst hquestion
    decide
  have hsegment : isSegmentSafe c = true := by
    simpa [isFragmentSafe, isPathSafe, hslash, hquestion] using hc
  simp only [isSegmentSafe, Bool.and_eq_true, decide_eq_true_eq] at hsegment
  obtain ⟨⟨hlow, hhigh⟩, hlisted⟩ := hsegment
  refine ⟨?_, hlow, hhigh⟩
  rintro rfl
  simp at hlisted

theorem wellEscaped_escapeChar {safe : Char → Bool}
    (hsafe : ∀ c, safe c = true → isFragmentSafe c = true) (c : Char) :
    WellEscaped (escapeChar safe c) := by
  unfold escapeChar
  split
  · next hc =>
      obtain ⟨hpercent, hprintable⟩ := printable_of_isFragmentSafe (hsafe c hc)
      exact .singleton hpercent hprintable
  · induction Utf8.encodeChar c with
    | nil => exact .nil
    | cons b bs ih =>
        rw [List.flatMap_cons]
        exact (wellEscaped_escapeByte b).append ih

theorem wellEscaped_escapeWith {safe : Char → Bool}
    (hsafe : ∀ c, safe c = true → isFragmentSafe c = true) (s : List Char) :
    WellEscaped (escapeWith safe s) := by
  induction s with
  | nil => exact .nil
  | cons c s ih =>
      rw [escapeWith, List.flatMap_cons]
      exact (wellEscaped_escapeChar hsafe c).append ih

/-! ### Pieces of a path -/

theorem escapeChar_of_ne_slash {c : Char} (hc : c ≠ '/') :
    escapeChar isPathSafe c = escapeChar isSegmentSafe c := by
  simp [escapeChar, isPathSafe, hc]

/-- A path is escaped piece by piece, and its slashes stay. -/
theorem escapeWith_pieces (s : List Char) :
    escapeWith isPathSafe s = join ['/'] ((pieces '/' s).map (escapeWith isSegmentSafe)) := by
  induction s with
  | nil => rfl
  | cons c s ih =>
      rw [escapeWith, List.flatMap_cons, ← escapeWith, ih, pieces]
      cases hpieces : pieces '/' s with
      | nil => exact absurd hpieces (pieces_ne_nil '/' s)
      | cons p ps =>
          split
          · next hc =>
              subst hc
              rfl
          · next hc =>
              rw [escapeChar_of_ne_slash hc]
              have hcons : escapeWith isSegmentSafe (c :: p) =
                  escapeChar isSegmentSafe c ++ escapeWith isSegmentSafe p := rfl
              cases ps with
              | nil => exact hcons.symm
              | cons q ps => simp only [List.map_cons, join, hcons, List.append_assoc]

/-! ### Texts for the parts of a URL -/

theorem unescape_ofList_escapeWith {safe : Char → Bool} (hsafe : safe '%' = false) (v : String) :
    unescape (String.ofList (escapeWith safe v.toList)) = some v := by
  rw [unescape, String.toList_ofList, unescapeChars_escapeWith hsafe, Option.map_some,
    String.ofList_toList]

/-- A text escaped for a segment, a path or a fragment reads back as it was; it is printable ASCII
with percent signs in escapes only, has none of the characters that end the part it goes into, and
a path is escaped segment by segment. -/
theorem escape_reads_back (v : String) :
    (unescape (escapeSegment v) = some v ∧ unescape (escapePath v) = some v ∧
      unescape (escapeFragment v) = some v) ∧
    (WellEscaped (escapeSegment v).toList ∧ WellEscaped (escapePath v).toList ∧
      WellEscaped (escapeFragment v).toList) ∧
    ('/' ∉ (escapeSegment v).toList ∧ '?' ∉ (escapeSegment v).toList ∧
      '#' ∉ (escapeSegment v).toList) ∧
    ('?' ∉ (escapePath v).toList ∧ '#' ∉ (escapePath v).toList) ∧
    '#' ∉ (escapeFragment v).toList ∧
    (escapePath v).toList =
      join ['/'] ((pieces '/' v.toList).map fun p => (escapeSegment (String.ofList p)).toList) := by
  have hfree : ∀ {safe : Char → Bool} (c : Char), safe c = false →
      c ∉ "%0123456789ABCDEF".toList → c ∉ escapeWith safe v.toList :=
    fun _ hsafe hdigits => not_mem_escapeWith (fun _ => hsafe) hdigits
  have hslash : '/' ∉ "%0123456789ABCDEF".toList := by decide +kernel
  have hquestion : '?' ∉ "%0123456789ABCDEF".toList := by decide +kernel
  have hhash : '#' ∉ "%0123456789ABCDEF".toList := by decide +kernel
  have hsegment : ∀ c, isSegmentSafe c = true → isFragmentSafe c = true := by
    intro c hc
    simp [isFragmentSafe, isPathSafe, hc]
  have hpath : ∀ c, isPathSafe c = true → isFragmentSafe c = true := by
    intro c hc
    simp [isFragmentSafe, hc]
  simp only [escapeSegment, escapePath, escapeFragment, String.toList_ofList]
  refine ⟨⟨?_, ?_, ?_⟩, ⟨?_, ?_, ?_⟩, ⟨?_, ?_, ?_⟩, ⟨?_, ?_⟩, ?_, escapeWith_pieces v.toList⟩
  · exact unescape_ofList_escapeWith rfl v
  · exact unescape_ofList_escapeWith rfl v
  · exact unescape_ofList_escapeWith rfl v
  · exact wellEscaped_escapeWith hsegment v.toList
  · exact wellEscaped_escapeWith hpath v.toList
  · exact wellEscaped_escapeWith (fun _ hc => hc) v.toList
  · exact hfree '/' rfl hslash
  · exact hfree '?' rfl hquestion
  · exact hfree '#' rfl hhash
  · exact hfree '?' rfl hquestion
  · exact hfree '#' rfl hhash
  · exact hfree '#' rfl hhash

end RouteEngine.Escape
