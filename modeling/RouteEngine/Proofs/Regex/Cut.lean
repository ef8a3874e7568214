import RouteEngine.Proofs.Regex.Language

/-!
Cutting a text. When no condition on a place can tell what stands behind a cut from the end of the
text, a matcher that sees the text up to the cut only lists the same matches, in the same order of
preference, without those that go on beyond the cut (`ends_cut`).
-/

namespace RouteEngine.Regex

/-- The condition can tell the end of a text from a character behind it that is no line break and
belongs to no word. -/
def Look.asksEnd : Look → Bool
  | .textEnd => true
  | .lineEnd => true
  | .crlfEnd => true
  | _ => false

/-- A condition that does not ask for an end takes what stands behind a cut for the end. -/
theorem Look.holds_cut {l : Look} (hl : l.asksEnd = false) {next : Option Char}
    (hword : ∀ ascii, isWordAt ascii next = false) (hline : next ≠ some '\n')
    (prev : Option Char) : l.holds prev next = l.holds prev none := by
  cases l with
  | textEnd | lineEnd | crlfEnd => cases hl
  | textStart | lineStart | wordStartHalf => rfl
  | crlfStart => simp [Look.holds, hline]
  | wordBoundary ascii | notWordBoundary ascii | wordStart ascii | wordEnd ascii
  | wordEndHalf ascii =>
      simp only [Look.holds, hword ascii]
      rfl

/-- The matches of at most `n` characters. -/
def within (n : Nat) (l : List Hit) : List Hit := l.filter fun h => decide (h.length ≤ n)

variable {n : Nat} {l : List Hit} {h : Hit}

theorem mem_within : h ∈ within n l ↔ h ∈ l ∧ h.length ≤ n := by
  simp [within]

theorem within_cons_of_le (hh : h.length ≤ n) : within n (h :: l) = h :: within n l :=
  List.filter_cons_of_pos (decide_eq_true hh)

theorem within_cons_of_lt (hh : n < h.length) : within n (h :: l) = within n l :=
  List.filter_cons_of_neg (by simpa using hh)

theorem within_append (k : List Hit) : within n (l ++ k) = within n l ++ within n k :=
  List.filter_append ..

theorem within_eq_self (hl : ∀ h ∈ l, h.length ≤ n) : within n l = l :=
  List.filter_eq_self.2 fun h hh => decide_eq_true (hl h hh)

theorem within_eq_nil (hl : ∀ h ∈ l, n < h.length) : within n l = [] := by
  refine List.filter_eq_nil_iff.2 fun h hh => ?_
  have hlong := hl h hh
  simp only [decide_eq_true_iff]
  omega

theorem within_dedup : within n (dedup l) = dedup (within n l) := by
  induction l with
  | nil => rfl
  | cons h l ih =>
      have hcomm : within n ((dedup l).filter fun k => k.length ≠ h.length) =
          (within n (dedup l)).filter fun k => k.length ≠ h.length := by
        simp only [within, List.filter_filter, Bool.and_comm]
      rcases Nat.lt_or_ge n h.length with hlong | hshort
      · have hall : ∀ k ∈ within n (dedup l), decide (k.length ≠ h.length) = true := by
          intro k hk
          have hlength := (mem_within.1 hk).2
          simp only [decide_eq_true_iff]
          omega
        rw [dedup, within_cons_of_lt hlong, within_cons_of_lt hlong, hcomm,
          List.filter_eq_self.2 hall, ih]
      · rw [dedup, within_cons_of_le hshort, within_cons_of_le hshort, dedup, hcomm, ih]

/-- Going on behind a match does not make it shorter. -/
theorem within_flatMap {f g : Hit → List Hit}
    (hlong : ∀ h ∈ l, n < h.length → ∀ k ∈ f h, n < k.length)
    (hshort : ∀ h ∈ l, h.length ≤ n → within n (f h) = g h) :
    within n (l.flatMap f) = (within n l).flatMap g := by
  induction l with
  | nil => rfl
  | cons h l ih =>
      obtain ⟨hlongHere, hlong⟩ := List.forall_mem_cons.1 hlong
      obtain ⟨hshortHere, hshort⟩ := List.forall_mem_cons.1 hshort
      rw [List.flatMap_cons, within_append, ih hlong hshort]
      rcases Nat.lt_or_ge n h.length with hn | hn
      · rw [within_cons_of_lt hn, within_eq_nil (hlongHere hn), List.nil_append]
      · rw [within_cons_of_le hn, List.flatMap_cons, hshortHere hn]

theorem within_andThen (hn : h.length ≤ n) (l : List Hit) :
    within n (l.map h.andThen) = (within (n - h.length) l).map h.andThen := by
  rw [within, within, List.filter_map]
  congr 2
  funext k
  simp only [Function.comp, Hit.andThen]
  exact decide_eq_decide.2 (by omega)

theorem lt_length_of_mem_andThen (hn : n < h.length) {k : Hit} (hk : k ∈ l.map h.andThen) :
    n < k.length := by
  obtain ⟨x, -, rfl⟩ := List.mem_map.1 hk
  simp only [Hit.andThen]
  omega

theorem within_onward {greedy : Bool} {later later' : List (List Hit)} (hh : h.length ≤ n)
    (hlater : h.length ≠ 0 → within (n - h.length) (later.getD (h.length - 1) []) =
      later'.getD (h.length - 1) []) :
    within n (onward greedy later h) = onward greedy later' h := by
  unfold onward
  split
  · rfl
  · next hlength =>
      have hself : within n [h] = [h] := within_eq_self (by simpa using hh)
      have hmore : within n ((later.getD (h.length - 1) []).map h.andThen) =
          (later'.getD (h.length - 1) []).map h.andThen := by
        rw [within_andThen hh, hlater hlength]
      cases greedy with
      | true => simp only [if_true, within_append, hmore, hself]
      | false => simp only [Bool.false_eq_true, if_false, within_cons_of_le hh, hmore]

theorem lt_length_of_mem_onward {greedy : Bool} {later : List (List Hit)} (hn : n < h.length)
    {k : Hit} (hk : k ∈ onward greedy later h) : n < k.length := by
  obtain ⟨-, rfl | ⟨x, -, rfl⟩⟩ := mem_onward.1 hk
  · exact hn
  · simp only [Hit.andThen]
    omega

/-! ### Cutting behind a place -/

/-- Up to a cut before `t` the matches are those of the text that ends there. -/
def Cuts (t : List Char) (step : Place → List Hit) : Prop :=
  ∀ i prev s, within s.length (step ⟨i, prev, s ++ t⟩) = step ⟨i, prev, s⟩

variable {t : List Char} {step : Place → List Hit} {greedy : Bool}

/-- A match that ends before the cut leads to the same place in both texts. -/
theorem exists_advance_cut (t : List Char) (i : Nat) (prev : Option Char) {s : List Char} {k : Nat}
    (hk : k ≤ s.length) :
    ∃ j prev', (Place.mk i prev (s ++ t)).advance k = ⟨j, prev', s.drop k ++ t⟩ ∧
      (Place.mk i prev s).advance k = ⟨j, prev', s.drop k⟩ := by
  have hlength : (s.take k).length = k := List.length_take_of_le hk
  have hwhole := Place.advance_mk i prev (s.take k) (s.drop k ++ t)
  have hcut := Place.advance_mk i prev (s.take k) (s.drop k)
  rw [← List.append_assoc, List.take_append_drop, hlength] at hwhole
  rw [List.take_append_drop, hlength] at hcut
  exact ⟨_, _, hwhole, hcut⟩

theorem Cuts.behind (hstep : Cuts t step) (i : Nat) (prev : Option Char) {s : List Char} {k : Nat}
    (hk : k ≤ s.length) :
    within (s.length - k) (step ((Place.mk i prev (s ++ t)).advance k)) =
      step ((Place.mk i prev s).advance k) := by
  obtain ⟨j, prev', hwhole, hcut⟩ := exists_advance_cut t i prev hk
  rw [hwhole, hcut, ← List.length_drop]
  exact hstep j prev' (s.drop k)

theorem getD_rounds_cons (i : Nat) (prev : Option Char) (c : Char) (r : List Char)
    (hlength : h.length ≠ 0) :
    (rounds step greedy (i + 1) (some c) r).getD (h.length - 1) [] =
      furtherEnds step greedy ((Place.mk i prev (c :: r)).advance h.length) := by
  have hrest : (Place.mk i prev (c :: r)).rest = c :: r := rfl
  exact getD_later hlength hrest

theorem Cuts.further (hstep : Cuts t step) : Cuts t (furtherEnds step greedy) := by
  intro i prev s
  induction hn : s.length using Nat.strongRecOn generalizing i prev s with
  | ind n ih =>
      subst hn
      cases s with
      | nil =>
          -- A further round takes up a character, and there is none before the cut.
          have hnone : furtherEnds step greedy ⟨i, prev, []⟩ = [] := furtherEnds_of_rest_nil rfl
          rw [hnone]
          refine within_eq_nil fun k hk => ?_
          obtain ⟨h, -, hlength, rfl | ⟨l, -, rfl⟩⟩ := mem_furtherEnds hk
          · exact Nat.pos_of_ne_zero hlength
          · simp only [Hit.andThen, List.length_nil]
            omega
      | cons c s =>
          have hround : ∀ r, furtherEnds step greedy ⟨i, prev, c :: r⟩ =
              dedup ((step ⟨i, prev, c :: r⟩).flatMap
                (onward greedy (rounds step greedy (i + 1) (some c) r))) :=
            fun r => furtherEnds_of_rest rfl
          rw [List.cons_append, hround, hround, within_dedup, ← hstep i prev (c :: s)]
          congr 1
          refine within_flatMap (fun h _ hh k hk => lt_length_of_mem_onward hh hk)
            fun h _ hh => within_onward hh fun hlength => ?_
          rw [getD_rounds_cons i prev c _ hlength, getD_rounds_cons i prev c _ hlength]
          obtain ⟨j, prev', hplace, hplace'⟩ := exists_advance_cut t i prev hh
          rw [List.cons_append] at hplace
          rw [hplace, hplace', ← List.length_drop]
          refine ih _ ?_ j prev' _ rfl
          rw [List.length_drop]
          simp only [List.length_cons] at hh ⊢
          omega

theorem Cuts.firstRound (hstep : Cuts t step) : Cuts t (firstRound step greedy) := by
  intro i prev s
  unfold Regex.firstRound
  simp only
  rw [within_dedup, ← hstep i prev s]
  congr 1
  refine within_flatMap (fun h _ hh k hk => ?_) fun h _ hh => ?_
  · rw [if_neg (by omega)] at hk
    exact lt_length_of_mem_onward hh hk
  · split
    · exact within_eq_self (by simpa using hh)
    · next hlength =>
        cases s with
        | nil => exact absurd (Nat.le_zero.1 hh) hlength
        | cons c s =>
            refine within_onward hh fun hlength => ?_
            simp only [List.cons_append]
            rw [getD_rounds_cons i prev c _ hlength, getD_rounds_cons i prev c _ hlength]
            exact hstep.further.behind i prev hh

/-- A matcher that sees a text only up to a cut finds the matches that end before the cut. -/
theorem ends_cut {r : Regex} {t : List Char}
    (hr : ∀ l ∈ r.looks, ∀ prev, l.holds prev t.head? = l.holds prev none) :
    Cuts t (ends r) := by
  induction r with
  | empty => exact fun i prev s => within_eq_self (by simp [nothing])
  | chars cls =>
      intro i prev s
      cases s with
      | nil =>
          have hnone : ends (.chars cls) ⟨i, prev, []⟩ = [] := ends_chars_of_rest_nil rfl
          rw [hnone]
          refine within_eq_nil fun h hh => ?_
          obtain ⟨s, after, -, hlength, htakes⟩ := takes_of_mem_ends hh
          cases htakes
          exact hlength ▸ Nat.one_pos
      | cons c s =>
          have hends : ∀ r, ends (.chars cls) ⟨i, prev, c :: r⟩ =
              if cls.holds c then [⟨1, []⟩] else [] := fun r => ends_chars rfl
          rw [List.cons_append, hends, hends]
          refine within_eq_self fun h hh => ?_
          split at hh
          · rw [List.mem_singleton.1 hh]
            simp
          · simp at hh
  | look l =>
      intro i prev s
      have hholds : l.holds prev (s ++ t).head? = l.holds prev s.head? := by
        cases s with
        | nil => exact hr l List.mem_cons_self prev
        | cons c s => rfl
      rw [ends_look, ends_look]
      simp only [hholds]
      refine within_eq_self fun h hh => ?_
      split at hh
      · rw [List.mem_singleton.1 hh]
        exact Nat.zero_le _
      · simp at hh
  | concat a b iha ihb =>
      intro i prev s
      have ha := iha fun l hl => hr l (List.mem_append_left _ hl)
      have hb := ihb fun l hl => hr l (List.mem_append_right _ hl)
      rw [ends_concat, ends_concat, within_dedup, ← ha i prev s]
      congr 1
      refine within_flatMap (fun h _ hh k hk => lt_length_of_mem_andThen hh hk) fun h _ hh => ?_
      rw [within_andThen hh, hb.behind i prev hh]
  | alt a b iha ihb =>
      intro i prev s
      have ha := iha fun l hl => hr l (List.mem_append_left _ hl)
      have hb := ihb fun l hl => hr l (List.mem_append_right _ hl)
      rw [ends, ends, within_dedup, within_append, ha, hb]
  | plus greedy a ih =>
      intro i prev s
      rw [ends_plus, ends_plus]
      exact (ih hr).firstRound i prev s
  | opt greedy a ih =>
      intro i prev s
      have hself : within s.length [nothing] = [nothing] := within_eq_self (by simp [nothing])
      cases greedy with
      | true => rw [ends_opt_greedy, ends_opt_greedy, within_dedup, within_append, ih hr, hself]
      | false =>
          simp only [ends, Bool.false_eq_true, if_false]
          rw [within_dedup, within_cons_of_le (Nat.zero_le _), ih hr]
  | group j a ih =>
      intro i prev s
      rw [ends_group, ends_group, ← ih hr i prev s, within, within, List.filter_map]
      rfl

end RouteEngine.Regex
