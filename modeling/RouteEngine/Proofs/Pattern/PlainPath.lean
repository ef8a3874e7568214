import RouteEngine.Proofs.Pattern.Parts
import RouteEngine.Proofs.Pattern.RoundTrip

/-!
Plain paths filled and matched. With a value for each of its names a plain path is written piece
by piece, and behind the last piece its format, if that is one of the names; what is written is
matched back to the values. It is a path in canonical form unless it ends in an escaped slash.
-/

namespace RouteEngine

open Regex

/-- The values are those of the names among the parts: not empty, and without points. -/
structure Part.Fits (parts : List Part) (values : Params) : Prop where
  keys : ∀ n, n ∈ values.keys ↔ Part.param n ∈ parts
  suits : ∀ n v, values.get? n = some v → v ≠ "" ∧ '.' ∉ v.toList

namespace Part.Fits

variable {parts : List Part} {values : Params}

theorem contains_of_mem_captures (h : Fits parts values) {c : Capture}
    (hc : c ∈ parts.flatMap Part.captures) : values.contains c.name = true := by
  obtain ⟨part, hpart, hc⟩ := List.mem_flatMap.1 hc
  cases part with
  | literal text => simp [Part.captures] at hc
  | param name =>
      obtain rfl := List.mem_singleton.1 hc
      rw [← Dict.mem_keys, h.keys]
      simpa [Pattern.defaultCapture] using hpart

theorem isPiece_emitted (h : Fits parts values) {c : Capture} (hkind : c.kind = .dynamic)
    (hc : values.contains c.name = true) : Escape.IsPiece (c.emitted values).text := by
  obtain ⟨v, hv⟩ := Segments.exists_value hc
  have hne : v.toList ≠ [] := by simpa using (h.suits c.name v hv).1
  rw [Capture.emitted_of_get? hv]
  simp only [Capture.escape, hkind]
  exact Escape.isPiece_escapeWith hne

theorem isPiece_fill (h : Fits parts values) {part : Part} (hmem : part ∈ parts)
    (hproper : part.IsProper) : Escape.IsPiece (part.fill values) := by
  cases part with
  | literal text =>
      have hsafe (c : Char) (hc : Part.isUnreserved c = false) : c ∉ text.toList :=
        fun hmem => Bool.false_ne_true (hc.symm.trans (List.all_eq_true.1 hproper.2 c hmem))
      exact ⟨by simpa [Part.fill] using hproper.1, hsafe '/' (by decide), text.toList,
        .of_not_mem (hsafe '%' (by decide))⟩
  | param name =>
      refine h.isPiece_emitted rfl (h.contains_of_mem_captures ?_)
      exact List.mem_flatMap.2 ⟨_, hmem, List.mem_singleton_self _⟩

end Part.Fits

namespace Pattern

variable {source : String} {parts : List Part} {anchored : Bool} {p : Pattern} {values : Params}
  {wanted : String → Bool}

theorem includable_format (given : String → Bool) :
    (Segments.literal "." (.capture formatCapture .done)).includable given =
      given formatCapture.name := by
  simp [Segments.includable, Segments.isWritable, Segments.directCaptures, Segments.hasDirect]

theorem directCaptures_rest {rest : Segments} (hrest : rest = .done ∨ rest = formatGroup) :
    rest.directCaptures = [] := by
  rcases hrest with rfl | rfl <;> rfl

theorem written_rest {rest : Segments} (hrest : rest = .done ∨ rest = formatGroup)
    (given : String → Bool) : rest.Written given [] := by
  rcases hrest with rfl | rfl
  · trivial
  · rw [formatGroup, Segments.Written, includable_format]
    cases given formatCapture.name with
    | false => exact ⟨.inr ⟨rfl, rfl, rfl⟩, trivial⟩
    | true => exact ⟨.inl ⟨rfl, trivial⟩, trivial⟩

/-- Behind the parts there is nothing, or a piece that begins with a point. -/
theorem text_rest {rest : Segments} (hrest : rest = .done ∨ rest = formatGroup)
    (hfits : Part.Fits parts values) (hwanted : ∀ n, wanted n = true → values.contains n = true) :
    (rest.filling values wanted).text = [] ∨ Escape.IsPiece (rest.filling values wanted).text := by
  rcases hrest with rfl | rfl
  · exact .inl rfl
  · rw [formatGroup, Segments.filling, includable_format]
    cases hgiven : wanted formatCapture.name with
    | false => exact .inl rfl
    | true =>
        have hcontains := hwanted _ hgiven
        have hpiece : Escape.IsPiece (formatCapture.emitted values).text :=
          hfits.isPiece_emitted rfl hcontains
        refine .inr ?_
        rw [hcontains, Bool.and_self, if_pos rfl]
        simpa [Segments.filling, Walk.text] using hpiece.cons (by decide) (by decide)

/-- A plain path that was written stands for some text, and it is in canonical form unless it ends
in an escaped slash. -/
theorem canonical_text {rest : Segments} (hrest : rest = .done ∨ rest = formatGroup)
    (hproper : ∀ part ∈ parts, part.IsProper) (hfits : Part.Fits parts values)
    (hwanted : ∀ n, wanted n = true → values.contains n = true)
    (hend : ¬ ['%', '2', 'F'] <:+ Part.fillText values parts ++ (rest.filling values wanted).text) :
    Escape.normalizeChars (Part.fillText values parts ++ (rest.filling values wanted).text) =
        Part.fillText values parts ++ (rest.filling values wanted).text ∧
      ∃ text, Escape.Spells (Part.fillText values parts ++ (rest.filling values wanted).text)
        text := by
  have hextra := text_rest hrest hfits hwanted
  revert hend hextra
  generalize (rest.filling values wanted).text = extra
  intro hend hextra
  -- Without parts the root is the one slash, and a format would be the only piece behind it.
  by_cases hnil : parts = []
  · rw [Part.fillText, if_pos hnil] at hend ⊢
    rcases hextra with rfl | hpiece
    · exact ⟨rfl, _, .plain (by decide) .nil⟩
    · have hone : ['/'] ++ extra = Escape.slashed [extra] ++ [] := by simp [Escape.slashed]
      rw [hone] at hend ⊢
      exact Escape.canonical_slashed (by simpa using hpiece) (List.cons_ne_nil _ _) (.inl rfl) hend
  · rw [Part.fillText, if_neg hnil] at hend ⊢
    refine Escape.canonical_slashed (fun piece hmem => ?_) (by simpa using hnil) hextra hend
    obtain ⟨part, hpart, rfl⟩ := List.mem_map.1 hmem
    exact hfits.isPiece_fill hpart (hproper part hpart)

/-- The names among the parts are those of captures that no group holds. -/
theorem exists_capture_of_mem (hplain : IsPlainPath source.toList parts)
    (hp : compile source .empty anchored = .ok p) {n : String} (hn : Part.param n ∈ parts) :
    ∃ c ∈ p.segments.directCaptures, c.name = n := by
  obtain ⟨-, rest, -, hbegins⟩ := begins_of_compile hplain hp
  refine ⟨defaultCapture .dynamic n.toList, ?_, String.ofList_toList⟩
  rw [hbegins.direct_eq]
  refine List.mem_append_left _ (List.mem_flatMap.2 ⟨_, hn, ?_⟩)
  exact List.mem_singleton_self _

theorem mem_names_of_mem (hplain : IsPlainPath source.toList parts)
    (hp : compile source .empty anchored = .ok p) {n : String} (hn : Part.param n ∈ parts) :
    n ∈ p.names := by
  obtain ⟨c, hc, rfl⟩ := exists_capture_of_mem hplain hp hn
  exact mem_names.2 ⟨_, Segments.mem_occurrences_of_mem_directCaptures hc false, rfl⟩

/-- A plain path is written from the values of its names, whatever other values there are, and
what is written is matched back to these values. -/
theorem matchPath_plainPath {merged : Params} (hplain : IsPlainPath source.toList parts)
    (hp : compile source .empty anchored = .ok p) (hfits : Part.Fits parts values)
    (hmerged : ∀ n, values.contains n = true → merged.get? n = values.get? n)
    (hwanted : ∀ n, wanted n = true → values.contains n = true) :
    ∃ g, p.generate merged wanted = .ok g ∧ p.matchPath g.path = some ⟨values, ""⟩ ∧
      (¬ ['%', '2', 'F'] <:+ g.path.toList →
        Escape.normalizePath g.path = g.path ∧ (Escape.unescape g.path).isSome = true) := by
  have hcompiled := plain_of_compile hp
  obtain ⟨hsep, rest, hrest, hbegins⟩ := begins_of_compile hplain hp
  have hdirect : ∀ c ∈ p.segments.directCaptures, values.contains c.name = true := by
    rw [hbegins.direct_eq, directCaptures_rest hrest, List.append_nil]
    exact fun c hc => hfits.contains_of_mem_captures hc
  have hsuits : ∀ o ∈ p.segments.occurrences false, o.capture.Suits values :=
    fun o _ v hv => ⟨(hfits.suits _ v hv).1, fun _ => (hfits.suits _ v hv).2⟩
  have hkeys : ∀ n ∈ values.keys, n ∈ (p.segments.filling values wanted).captured.map (·.1) := by
    intro n hn
    obtain ⟨c, hc, rfl⟩ := exists_capture_of_mem hplain hp ((hfits.keys n).1 hn)
    exact (p.segments.filling values wanted).mem_captured_of_mem_directCaptures hc
  have hemit : p.generate merged wanted = p.generate values wanted := by
    rw [generate, generate, Segments.emit_congr (fun c hc => hmerged _ (hdirect c hc))
      fun n hn => hmerged n (hwanted n hn)]
  have hmatch := matchPath_filling hcompiled hsep (.inr (kind_of_begins hbegins hrest)) hsuits
    hdirect
    (hbegins.written _ [] (written_rest hrest fun n => wanted n && values.contains n)) hkeys
  refine ⟨_, hemit.trans (generate_eq_ok _ hdirect), hmatch, fun hend => ?_⟩
  rw [String.toList_ofList, hbegins.text_eq] at hend
  obtain ⟨hcanonical, text, hspells⟩ :=
    canonical_text hrest hplain.proper hfits hwanted hend
  simp only [Escape.normalizePath, Escape.unescape, String.toList_ofList, hbegins.text_eq]
  rw [hcanonical, hspells.unescapeChars_eq]
  exact ⟨rfl, rfl⟩

end Pattern

end RouteEngine
