import RouteEngine.Escape.Percent
import RouteEngine.Proofs.Text.Utf8

/-!
Escaping and taking escapes away. A character that is not safe becomes one escape for each of its
bytes and a safe one stays, so reading byte by byte gives the bytes of the text back as long as
the percent sign itself is not safe. Which characters an escaped text consists of is said once, in
`mem_escapeWith`; that it has no slash, say, is then a matter of that one character.
-/

namespace RouteEngine.Escape

open Text

/-! ### Hexadecimal digits -/

theorem hexValue?_upperHexDigit : ∀ n < 16, hexValue? (upperHexDigit n) = some n := by
  decide

theorem upperHexDigit_mem : ∀ n < 16, upperHexDigit n ∈ "0123456789ABCDEF".toList := by
  decide +kernel

theorem hex_lt (b : UInt8) : b.toNat / 16 < 16 ∧ b.toNat % 16 < 16 := by
  have hb := b.toNat_lt
  omega

/-! ### Bytes -/

theorem unescapeBytes_escapeByte_append (b : UInt8) (r : List Char) :
    unescapeBytes (escapeByte b ++ r) = b :: unescapeBytes r := by
  obtain ⟨hhigh, hlow⟩ := hex_lt b
  have hb : 16 * (b.toNat / 16) + b.toNat % 16 = b.toNat := by omega
  simp only [escapeByte, List.cons_append, List.nil_append, unescapeBytes,
    hexValue?_upperHexDigit _ hhigh, hexValue?_upperHexDigit _ hlow, hb, UInt8.ofNat_toNat]

theorem unescapeBytes_cons {c : Char} (hc : c ≠ '%') (r : List Char) :
    unescapeBytes (c :: r) = Utf8.encodeChar c ++ unescapeBytes r := by
  conv => lhs; unfold unescapeBytes
  split
  · simp at *
  · next heq =>
      cases heq
      exact absurd rfl hc
  · next heq =>
      cases heq
      rfl

theorem unescapeBytes_flatMap_escapeByte (bs : List UInt8) (r : List Char) :
    unescapeBytes (bs.flatMap escapeByte ++ r) = bs ++ unescapeBytes r := by
  induction bs with
  | nil => rfl
  | cons b bs ih =>
      rw [List.flatMap_cons, List.append_assoc, unescapeBytes_escapeByte_append, ih,
        List.cons_append]

/-! ### Spelling -/

/-- The text `t` spells `s`: each character of `s` stands in it as it is or as its escape. -/
inductive Spells : (t s : List Char) → Prop
  | nil : Spells [] []
  | plain {c : Char} {t s : List Char} (hc : c ≠ '%') (h : Spells t s) : Spells (c :: t) (c :: s)
  | escaped (c : Char) {t s : List Char} (h : Spells t s) :
    Spells ((Utf8.encodeChar c).flatMap escapeByte ++ t) (c :: s)

variable {safe : Char → Bool}

namespace Spells

variable {t t' s s' : List Char}

theorem append (h : Spells t s) (h' : Spells t' s') : Spells (t ++ t') (s ++ s') := by
  induction h with
  | nil => exact h'
  | plain hc _ ih => exact .plain hc ih
  | escaped c _ ih =>
      rw [List.append_assoc]
      exact .escaped c ih

theorem of_not_mem {s : List Char} (hs : '%' ∉ s) : Spells s s := by
  induction s with
  | nil => exact .nil
  | cons c s ih =>
      simp only [List.mem_cons, not_or] at hs
      exact .plain (Ne.symm hs.1) (ih hs.2)

theorem escapeWith (hsafe : safe '%' = false) (s : List Char) :
    Spells (Escape.escapeWith safe s) s := by
  induction s with
  | nil => exact .nil
  | cons c s ih =>
      rw [Escape.escapeWith, List.flatMap_cons, ← Escape.escapeWith]
      unfold escapeChar
      split
      · next hc => exact .plain (fun h => by simp [h, hsafe] at hc) ih
      · exact .escaped c ih

theorem unescapeBytes_eq (h : Spells t s) : unescapeBytes t = Utf8.encode s := by
  induction h with
  | nil => rfl
  | plain hc _ ih =>
      rw [unescapeBytes_cons hc, ih]
      rfl
  | escaped c _ ih =>
      rw [unescapeBytes_flatMap_escapeByte, ih]
      rfl

/-- Taking the escapes away gives back what is spelled. -/
theorem unescapeChars_eq (h : Spells t s) : unescapeChars t = some s := by
  rw [unescapeChars, h.unescapeBytes_eq, Utf8.decode_encode]

end Spells

/-! ### Escaped texts -/

theorem unescapeChars_escapeWith (hsafe : safe '%' = false) (s : List Char) :
    unescapeChars (escapeWith safe s) = some s :=
  (Spells.escapeWith hsafe s).unescapeChars_eq

theorem escapeWith_eq_self {s : List Char} (hs : ∀ c ∈ s, safe c = true) :
    escapeWith safe s = s := by
  induction s with
  | nil => rfl
  | cons c s ih =>
      obtain ⟨hc, hs⟩ := List.forall_mem_cons.1 hs
      rw [escapeWith, List.flatMap_cons, escapeChar, if_pos hc, List.singleton_append]
      exact congrArg (c :: ·) (ih hs)

theorem encodeChar_ne_nil (c : Char) : Utf8.encodeChar c ≠ [] := by
  unfold Utf8.encodeChar
  simp only
  split
  · simp
  · split
    · simp
    · split <;> simp

theorem escapeChar_ne_nil (c : Char) : escapeChar safe c ≠ [] := by
  unfold escapeChar
  split
  · simp
  · cases hbytes : Utf8.encodeChar c with
    | nil => exact absurd hbytes (encodeChar_ne_nil c)
    | cons b bs => simp [escapeByte]

theorem escapeWith_ne_nil {s : List Char} (hs : s ≠ []) : escapeWith safe s ≠ [] := by
  cases s with
  | nil => exact absurd rfl hs
  | cons c s =>
      rw [escapeWith, List.flatMap_cons]
      exact fun h => escapeChar_ne_nil c (List.append_eq_nil_iff.1 h).1

theorem one_lt_length_escapeChar {c : Char} (hc : safe c = false) :
    1 < (escapeChar safe c).length := by
  rw [escapeChar, if_neg (by simp [hc])]
  cases hbytes : Utf8.encodeChar c with
  | nil => exact absurd hbytes (encodeChar_ne_nil c)
  | cons b bs => simp [escapeByte]

theorem length_le_length_escapeWith (s : List Char) : s.length ≤ (escapeWith safe s).length := by
  induction s with
  | nil => exact Nat.le_refl 0
  | cons c s ih =>
      have hc : 0 < (escapeChar safe c).length := List.length_pos_iff.2 (escapeChar_ne_nil c)
      rw [escapeWith, List.flatMap_cons, List.length_append, ← escapeWith, List.length_cons]
      omega

/-- A text that escaping leaves as it is consists of characters that it leaves as they are. -/
theorem safe_of_escapeWith_eq_self {s : List Char} (hs : escapeWith safe s = s) :
    ∀ c ∈ s, safe c = true := by
  induction s with
  | nil => simp
  | cons c s ih =>
      have hlength : s.length ≤ (escapeWith safe s).length := length_le_length_escapeWith s
      rw [escapeWith, List.flatMap_cons, ← escapeWith] at hs
      cases hc : safe c with
      | false =>
          -- An escape is longer than its character, and nothing that follows gets shorter.
          have hlong := one_lt_length_escapeChar hc
          have hsum := congrArg List.length hs
          rw [List.length_append, List.length_cons] at hsum
          omega
      | true =>
          rw [escapeChar, if_pos hc, List.singleton_append] at hs
          exact List.forall_mem_cons.2 ⟨hc, ih (List.cons.inj hs).2⟩

theorem mem_escapeByte {d : Char} {b : UInt8} (h : d ∈ escapeByte b) :
    d ∈ "%0123456789ABCDEF".toList := by
  obtain ⟨hhigh, hlow⟩ := hex_lt b
  have htext : "%0123456789ABCDEF".toList = '%' :: "0123456789ABCDEF".toList := by
    decide +kernel
  rw [htext]
  simp only [escapeByte, List.mem_cons, List.not_mem_nil, or_false] at h
  rcases h with rfl | rfl | rfl
  · exact List.mem_cons_self
  · exact List.mem_cons_of_mem _ (upperHexDigit_mem _ hhigh)
  · exact List.mem_cons_of_mem _ (upperHexDigit_mem _ hlow)

/-- An escaped text has safe characters of the text and those of escapes, no others. -/
theorem mem_escapeWith {d : Char} {s : List Char} (h : d ∈ escapeWith safe s) :
    d ∈ s ∧ safe d = true ∨ d ∈ "%0123456789ABCDEF".toList := by
  obtain ⟨c, hc, hd⟩ := List.mem_flatMap.1 h
  unfold escapeChar at hd
  split at hd
  · next hsafe =>
      obtain rfl := List.mem_singleton.1 hd
      exact .inl ⟨hc, hsafe⟩
  · obtain ⟨b, -, hb⟩ := List.mem_flatMap.1 hd
    exact .inr (mem_escapeByte hb)

theorem not_mem_escapeWith {d : Char} {s : List Char} (hsafe : d ∈ s → safe d = false)
    (hhex : d ∉ "%0123456789ABCDEF".toList) : d ∉ escapeWith safe s := by
  intro h
  rcases mem_escapeWith h with ⟨hd, hs⟩ | h
  · rw [hsafe hd] at hs
    exact Bool.false_ne_true hs
  · exact hhex h

end RouteEngine.Escape
