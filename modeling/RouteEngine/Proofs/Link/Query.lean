import RouteEngine.Link.Query
import RouteEngine.Proofs.Escape.RoundTrip
import RouteEngine.Proofs.Text.Split

/-!
Reading query strings. The reader cuts at every ampersand and then at the first equals sign, turns
plus signs into blanks and takes the escapes away. A name or value is written without any of the
characters that it is cut at (`not_mem_encode`), and with its plus signs turned into blanks it is
an escaped text in which the blank is safe too (`map_blankOf_encode`); so what was written is read
back (`decodeAll_encodeAll`).
-/

namespace RouteEngine.Query

open Text

/-- A plus sign stands for a blank. -/
def blankOf (c : Char) : Char := if c = '+' then ' ' else c

/-- `none` when the escapes do not come to a text. -/
def decode (s : List Char) : Option String :=
  (Escape.unescapeChars (s.map blankOf)).map String.ofList

/-- A name and, behind the first equals sign, a value. -/
def decodePair (piece : List Char) : Option (String × String) :=
  let (name, value) := (splitFirst '=' piece).getD (piece, [])
  (decode name).bind fun n => (decode value).map fun v => (n, v)

/-- The pairs between the ampersands, where something stands between them. -/
def decodeAll (s : List Char) : Option (List (String × String)) :=
  ((pieces '&' s).filter (· ≠ [])).mapM decodePair

/-! ### One text -/

theorem not_mem_encode {c : Char} (hplain : isPlain c = false) (hplus : c ≠ '+')
    (hdigits : c ∉ "%0123456789ABCDEF".toList) (s : List Char) : c ∉ encode s := by
  intro h
  obtain ⟨d, -, hd⟩ := List.mem_flatMap.1 h
  rw [encodeChar] at hd
  split at hd
  · exact hplus (List.mem_singleton.1 hd)
  · have hescaped : c ∈ Escape.escapeWith isPlain [d] := by simpa [Escape.escapeWith] using hd
    exact Escape.not_mem_escapeWith (fun _ => hplain) hdigits hescaped

/-- Turning plus signs into blanks leaves every escape as it is. -/
theorem map_blankOf_encodeChar (c : Char) :
    (encodeChar c).map blankOf = Escape.escapeChar (fun c => isPlain c || c = ' ') c := by
  rw [encodeChar]
  split
  · next hc =>
      subst hc
      rfl
  · next hc =>
      have hsafe : (isPlain c || decide (c = ' ')) = isPlain c := by simp [hc]
      have hplus : '+' ∉ Escape.escapeWith isPlain [c] :=
        Escape.not_mem_escapeWith (fun _ => by decide) (by decide +kernel)
      have hsame : ∀ d ∈ Escape.escapeChar isPlain c, blankOf d = d := by
        intro d hd
        refine if_neg ?_
        rintro rfl
        exact hplus (by simpa [Escape.escapeWith] using hd)
      rw [List.map_congr_left hsame, List.map_id']
      simp only [Escape.escapeChar, hsafe]

theorem map_blankOf_encode (s : List Char) :
    (encode s).map blankOf = Escape.escapeWith (fun c => isPlain c || c = ' ') s := by
  rw [encode, List.map_flatMap, Escape.escapeWith]
  exact congrArg (List.flatMap · s) (funext map_blankOf_encodeChar)

theorem decode_encode (s : String) : decode (encode s.toList) = some s := by
  rw [decode, map_blankOf_encode, Escape.unescapeChars_escapeWith (by decide), Option.map_some,
    String.ofList_toList]

/-! ### Pairs -/

theorem decodePair_encodePair (p : String × String) : decodePair (encodePair p) = some p := by
  have hequals : '=' ∉ encode p.1.toList :=
    not_mem_encode (by decide) (by decide) (by decide +kernel) _
  have hcut : splitFirst '=' (encodePair p) = some (encode p.1.toList, encode p.2.toList) :=
    splitFirst_eq_some.2 ⟨rfl, hequals⟩
  simp only [decodePair, hcut, Option.getD_some, decode_encode, Option.bind_some, Option.map_some]

theorem mapM_decodePair (pairs : List (String × String)) :
    (pairs.map encodePair).mapM decodePair = some pairs := by
  induction pairs with
  | nil => rfl
  | cons p pairs ih =>
      rw [List.map_cons, List.mapM_cons, decodePair_encodePair, ih]
      rfl

theorem not_mem_encodePair {c : Char} (hplain : isPlain c = false) (hplus : c ≠ '+')
    (hequals : c ≠ '=') (hdigits : c ∉ "%0123456789ABCDEF".toList) (p : String × String) :
    c ∉ encodePair p := by
  rw [encodePair, List.mem_append, List.mem_cons, not_or, not_or]
  exact ⟨not_mem_encode hplain hplus hdigits _, hequals, not_mem_encode hplain hplus hdigits _⟩

theorem encodePair_ne_nil (p : String × String) : encodePair p ≠ [] := by
  simp [encodePair]

theorem encodeAll_eq_nil {pairs : List (String × String)} : encodeAll pairs = [] ↔ pairs = [] := by
  constructor
  · intro h
    cases pairs with
    | nil => rfl
    | cons p pairs =>
        cases pairs with
        | nil => exact absurd h (encodePair_ne_nil p)
        | cons q pairs => simp [encodeAll, join, encodePair_ne_nil] at h
  · rintro rfl
    rfl

theorem not_mem_encodeAll {c : Char} (hplain : isPlain c = false) (hmarks : c ∉ ['+', '=', '&'])
    (hdigits : c ∉ "%0123456789ABCDEF".toList) (pairs : List (String × String)) :
    c ∉ encodeAll pairs := by
  simp only [List.mem_cons, List.not_mem_nil, or_false, not_or] at hmarks
  obtain ⟨hplus, hequals, hampersand⟩ := hmarks
  intro h
  rcases mem_join h with h | ⟨piece, hpiece, h⟩
  · exact hampersand (List.mem_singleton.1 h)
  · obtain ⟨p, -, rfl⟩ := List.mem_map.1 hpiece
    exact not_mem_encodePair hplain hplus hequals hdigits p h

/-- What has been written is read back, pair by pair. -/
theorem decodeAll_encodeAll (pairs : List (String × String)) :
    decodeAll (encodeAll pairs) = some pairs := by
  have hpieces : (pieces '&' (encodeAll pairs)).filter (· ≠ []) = pairs.map encodePair := by
    by_cases hnil : pairs = []
    · subst hnil
      rfl
    · have hampersand : ∀ piece ∈ pairs.map encodePair, '&' ∉ piece :=
        List.forall_mem_map.2 fun p _ =>
          not_mem_encodePair (by decide) (by decide) (by decide) (by decide +kernel) p
      have hkept : ∀ piece ∈ pairs.map encodePair, decide (piece ≠ []) = true :=
        List.forall_mem_map.2 fun p _ => decide_eq_true (encodePair_ne_nil p)
      rw [encodeAll, pieces_join (by simpa using hnil) hampersand, List.filter_eq_self.2 hkept]
  rw [decodeAll, hpieces, mapM_decodePair]

end RouteEngine.Query
