import RouteEngine.Text.Split

/-!
Cutting a text and searching for words in it, as facts about its parts.
-/

namespace RouteEngine.Text

theorem dropPrefix?_eq_some {pre s r : List Char} : dropPrefix? pre s = some r ↔ s = pre ++ r := by
  constructor
  · exact eq_append_of_dropPrefix?
  · rintro rfl
    exact dropPrefix?_append pre r

theorem dropSuffix?_eq_some {suf s r : List Char} : dropSuffix? suf s = some r ↔ s = r ++ suf := by
  rw [dropSuffix?, Option.map_eq_some_iff]
  constructor
  · rintro ⟨t, ht, rfl⟩
    have heq := congrArg List.reverse (dropPrefix?_eq_some.1 ht)
    rwa [List.reverse_reverse, List.reverse_append, List.reverse_reverse] at heq
  · rintro rfl
    exact ⟨r.reverse, by rw [List.reverse_append, dropPrefix?_append], List.reverse_reverse r⟩

theorem dropSuffix?_eq_none {suf s : List Char} (h : ¬ suf <:+ s) : dropSuffix? suf s = none := by
  rw [Option.eq_none_iff_forall_ne_some]
  intro r hr
  exact h ⟨r, (dropSuffix?_eq_some.1 hr).symm⟩

/-! ### Trimming -/

theorem getLast?_trimEnd {p : Char → Bool} {s : List Char} {c : Char}
    (h : (trimEnd p s).getLast? = some c) : p c = false := by
  have hfirst := List.head?_dropWhile_not p s.reverse
  rw [trimEnd, List.getLast?_reverse] at h
  rwa [h] at hfirst

theorem trimEnd_eq_self {p : Char → Bool} {s : List Char}
    (h : ∀ c, s.getLast? = some c → p c = false) : trimEnd p s = s := by
  rw [trimEnd]
  cases hs : s.reverse with
  | nil => rw [List.dropWhile_nil, ← hs, List.reverse_reverse]
  | cons c r =>
      have hlast : s.getLast? = some c := by
        rw [← List.head?_reverse, hs, List.head?_cons]
      rw [List.dropWhile_cons_of_neg (by simp [h c hlast]), ← hs, List.reverse_reverse]

/-! ### Separators and words -/

/-- The part before the first separator has none. -/
theorem splitFirst_eq_some {sep : Char} {s a b : List Char} :
    splitFirst sep s = some (a, b) ↔ s = a ++ sep :: b ∧ sep ∉ a := by
  induction s generalizing a with
  | nil => simp [splitFirst]
  | cons c s ih =>
      rw [splitFirst]
      split
      · next hc =>
          subst hc
          cases a with
          | nil => simp
          | cons d a => simp +contextual [eq_comm]
      · next hc =>
          rw [Option.map_eq_some_iff]
          constructor
          · rintro ⟨⟨x, y⟩, hxy, heq⟩
            cases heq
            obtain ⟨rfl, hnot⟩ := ih.1 hxy
            exact ⟨rfl, by simp [Ne.symm hc, hnot]⟩
          · rintro ⟨heq, hnot⟩
            cases a with
            | nil =>
                cases heq
                exact absurd rfl hc
            | cons d a =>
                cases heq
                rw [List.mem_cons, not_or] at hnot
                exact ⟨(a, b), ih.2 ⟨rfl, hnot.2⟩, rfl⟩

theorem pieces_of_not_mem {sep : Char} {s : List Char} (hs : sep ∉ s) : pieces sep s = [s] := by
  induction s with
  | nil => rfl
  | cons c s ih =>
      rw [List.mem_cons, not_or] at hs
      rw [pieces, if_neg (Ne.symm hs.1), ih hs.2]

theorem pieces_append_cons {sep : Char} {a : List Char} (ha : sep ∉ a) (b : List Char) :
    pieces sep (a ++ sep :: b) = a :: pieces sep b := by
  induction a with
  | nil => rw [List.nil_append, pieces, if_pos rfl]
  | cons c a ih =>
      rw [List.mem_cons, not_or] at ha
      rw [List.cons_append, pieces, if_neg (Ne.symm ha.1), ih ha.2]

/-- Pieces that each have a separator behind them, and the empty one behind the last. -/
theorem pieces_flatMap {sep : Char} {ps : List (List Char)} (hps : ∀ p ∈ ps, sep ∉ p) :
    pieces sep (ps.flatMap (· ++ [sep])) = ps ++ [[]] := by
  induction ps with
  | nil => rfl
  | cons p ps ih =>
      obtain ⟨hp, hps⟩ := List.forall_mem_cons.1 hps
      rw [List.flatMap_cons, List.append_assoc, List.singleton_append, pieces_append_cons hp,
        ih hps, List.cons_append]

/-- Pieces without the separator are what their join is cut into. -/
theorem pieces_join {sep : Char} {ps : List (List Char)} (hne : ps ≠ [])
    (hps : ∀ p ∈ ps, sep ∉ p) : pieces sep (join [sep] ps) = ps := by
  induction ps with
  | nil => exact absurd rfl hne
  | cons p ps ih =>
      obtain ⟨hp, hps⟩ := List.forall_mem_cons.1 hps
      cases ps with
      | nil => exact pieces_of_not_mem hp
      | cons q ps =>
          rw [join, List.append_assoc, List.singleton_append, pieces_append_cons hp,
            ih (List.cons_ne_nil q ps) hps]

/-- No separator is left in a piece. -/
theorem not_mem_of_mem_pieces {sep : Char} {s p : List Char} (hp : p ∈ pieces sep s) :
    sep ∉ p := by
  induction s generalizing p with
  | nil =>
      rw [pieces, List.mem_singleton] at hp
      simp [hp]
  | cons c s ih =>
      rw [pieces] at hp
      split at hp
      · rcases List.mem_cons.1 hp with rfl | hp
        · simp
        · exact ih hp
      · next hc =>
          cases hs : pieces sep s with
          | nil => exact absurd hs (pieces_ne_nil sep s)
          | cons q qs =>
              simp only [hs] at hp
              rcases List.mem_cons.1 hp with rfl | hp
              · have hq : sep ∉ q := ih (hs ▸ List.mem_cons_self)
                simp [Ne.symm hc, hq]
              · exact ih (hs ▸ List.mem_cons_of_mem q hp)

/-- A join of two runs of pieces is the two joins with the separator between them. -/
theorem join_append (sep : List Char) {ps qs : List (List Char)} (hps : ps ≠ []) (hqs : qs ≠ []) :
    join sep (ps ++ qs) = join sep ps ++ sep ++ join sep qs := by
  induction ps with
  | nil => exact absurd rfl hps
  | cons p ps ih =>
      cases ps with
      | nil =>
          cases qs with
          | nil => exact absurd rfl hqs
          | cons q qs => rfl
      | cons p' ps =>
          rw [List.cons_append, List.cons_append, join, ← List.cons_append,
            ih (List.cons_ne_nil p' ps), join]
          simp only [List.append_assoc]

/-- The characters of a join are those of the pieces and of the separator. -/
theorem mem_join {sep ps} {c : Char} (h : c ∈ join sep ps) : c ∈ sep ∨ ∃ p ∈ ps, c ∈ p := by
  induction ps with
  | nil => cases h
  | cons p ps ih =>
      cases ps with
      | nil => exact .inr ⟨p, List.mem_cons_self, h⟩
      | cons q ps =>
          rw [join, List.mem_append, List.mem_append] at h
          rcases h with (h | h) | h
          · exact .inr ⟨p, List.mem_cons_self, h⟩
          · exact .inl h
          · refine (ih h).imp_right ?_
            rintro ⟨p', hp', hc⟩
            exact ⟨p', List.mem_cons_of_mem _ hp', hc⟩

theorem toList_intercalate (sep : String) (ss : List String) :
    (sep.intercalate ss).toList = join sep.toList (ss.map String.toList) := by
  induction ss with
  | nil => rfl
  | cons s ss ih =>
      cases ss with
      | nil => rw [String.intercalate_singleton, List.map_singleton, join]
      | cons s' ss =>
          rw [String.intercalate_cons_cons, String.toList_append, String.toList_append, ih,
            List.map_cons, List.map_cons, List.map_cons, join]

theorem startsWith_eq_true {pre s : List Char} : startsWith pre s = true ↔ pre <+: s := by
  rw [startsWith, Option.isSome_iff_exists]
  constructor
  · rintro ⟨r, hr⟩
    exact ⟨r, (dropPrefix?_eq_some.1 hr).symm⟩
  · rintro ⟨r, hr⟩
    exact ⟨r, dropPrefix?_eq_some.2 hr.symm⟩

theorem contains_cons (word : List Char) (c : Char) (s : List Char) :
    contains word (c :: s) = (startsWith word (c :: s) || contains word s) := by
  rw [contains, splitAtWord, startsWith]
  cases dropPrefix? word (c :: s) <;> simp [contains]

theorem contains_eq_true {word s : List Char} : contains word s = true ↔ word <:+: s := by
  induction s with
  | nil =>
      have hnil : contains word [] = startsWith word [] := by simp [contains, splitAtWord, startsWith]
      rw [hnil, startsWith_eq_true, List.prefix_nil, List.infix_nil]
  | cons c s ih =>
      rw [contains_cons, Bool.or_eq_true, ih, startsWith_eq_true, List.infix_cons_iff]

end RouteEngine.Text
