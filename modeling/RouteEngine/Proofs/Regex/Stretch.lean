import RouteEngine.Proofs.Regex.Onward

/-!
Repeating a class of characters. One round or more of a class ends after any number of the
characters that belong to it and stand in a row, at least one: the longest stretch first when the
repetition is greedy, the shortest first when it is lazy. This is the only repetition in the
expressions that captures have on their own.
-/

namespace RouteEngine.Regex

/-- The hits of one up to `m` characters, in the order of preference. -/
def stretch (greedy : Bool) (m : Nat) : List Hit :=
  let shortestFirst := (List.range m).map fun n => Hit.mk (n + 1) []
  if greedy then shortestFirst.reverse else shortestFirst

theorem mem_stretch {greedy : Bool} {m : Nat} {h : Hit} (hh : h ∈ stretch greedy m) :
    ∃ n < m, h = ⟨n + 1, []⟩ := by
  have hmem : h ∈ (List.range m).map fun n => Hit.mk (n + 1) [] := by
    unfold stretch at hh
    split at hh
    · exact List.mem_reverse.1 hh
    · exact hh
  obtain ⟨n, hn, rfl⟩ := List.mem_map.1 hmem
  exact ⟨n, List.mem_range.1 hn, rfl⟩

theorem pairwise_stretch (greedy : Bool) (m : Nat) :
    (stretch greedy m).Pairwise fun a b => b.length ≠ a.length := by
  have hrange : ((List.range m).map fun n => Hit.mk (n + 1) []).Pairwise
      fun a b => b.length ≠ a.length := by
    refine List.pairwise_map.2 (List.pairwise_lt_range.imp fun hlt => ?_)
    simp only
    omega
  unfold stretch
  split
  · exact List.pairwise_reverse.2 (hrange.imp Ne.symm)
  · exact hrange

@[simp] theorem dedup_stretch (greedy : Bool) (m : Nat) :
    dedup (stretch greedy m) = stretch greedy m :=
  dedup_of_pairwise (pairwise_stretch greedy m)

/-- One character more: it is the first round, and the others follow it. -/
theorem stretch_succ (greedy : Bool) (m : Nat) :
    stretch greedy (m + 1) =
      if greedy then (stretch greedy m).map (Hit.mk 1 []).andThen ++ [⟨1, []⟩]
      else ⟨1, []⟩ :: (stretch greedy m).map (Hit.mk 1 []).andThen := by
  have hshift : ((List.range m).map fun n => Hit.mk (n + 1) []).map (Hit.mk 1 []).andThen =
      (List.range m).map fun n => Hit.mk (n + 1 + 1) [] := by
    rw [List.map_map]
    refine List.map_congr_left fun n _ => ?_
    simp [Hit.andThen, Nat.add_comm]
  have hrange : ((List.range (m + 1)).map fun n => Hit.mk (n + 1) []) =
      ⟨1, []⟩ :: ((List.range m).map fun n => Hit.mk (n + 1) []).map (Hit.mk 1 []).andThen := by
    rw [hshift, List.range_succ_eq_map, List.map_cons, List.map_map]
    rfl
  cases greedy with
  | true => simp only [stretch, if_true, hrange, List.reverse_cons, List.map_reverse]
  | false => simp only [stretch, hrange, Bool.false_eq_true, if_false]

theorem onward_one (greedy : Bool) {later : List (List Hit)} {m : Nat}
    (h : later.getD 0 [] = stretch greedy m) :
    onward greedy later ⟨1, []⟩ = stretch greedy (m + 1) := by
  rw [onward, if_neg (by simp), stretch_succ, ← h]
  rfl

theorem ends_chars_of_holds {cls : CharClass} {c : Char} (hc : cls.holds c = true) (i : Nat)
    (prev : Option Char) (r : List Char) : ends (.chars cls) ⟨i, prev, c :: r⟩ = [⟨1, []⟩] := by
  rw [ends_chars rfl, hc]
  rfl

theorem ends_chars_of_not_holds {cls : CharClass} {c : Char} (hc : cls.holds c = false) (i : Nat)
    (prev : Option Char) (r : List Char) : ends (.chars cls) ⟨i, prev, c :: r⟩ = [] := by
  rw [ends_chars rfl, hc]
  rfl

theorem getD_rounds_chars (cls : CharClass) (greedy : Bool) (i : Nat) (prev : Option Char)
    (rest : List Char) :
    (rounds (fun q => ends (.chars cls) q) greedy i prev rest).getD 0 [] =
      stretch greedy (rest.takeWhile cls.holds).length := by
  -- The first character is a round, and the rounds behind it are those of the rest of the text.
  induction rest generalizing i prev with
  | nil => cases greedy <;> rfl
  | cons c r ih =>
      rw [rounds, List.getD_cons_zero]
      cases hc : cls.holds c with
      | true =>
          rw [ends_chars_of_holds hc, List.flatMap_singleton,
            onward_one greedy (ih (i + 1) (some c)), dedup_stretch,
            List.takeWhile_cons_of_pos hc, List.length_cons]
      | false =>
          rw [ends_chars_of_not_holds hc, List.takeWhile_cons_of_neg (by simp [hc])]
          cases greedy <;> rfl

theorem ends_plus_chars (cls : CharClass) (greedy : Bool) (p : Place) :
    ends (.plus greedy (.chars cls)) p =
      stretch greedy (p.rest.takeWhile cls.holds).length := by
  obtain ⟨i, prev, rest⟩ := p
  rw [ends_plus, firstRound]
  cases rest with
  | nil => cases greedy <;> rfl
  | cons c r =>
      cases hc : cls.holds c with
      | true =>
          have hlater := getD_rounds_chars cls greedy (i + 1) (some c) r
          rw [List.takeWhile_cons_of_pos hc, List.length_cons]
          rw [ends_chars_of_holds hc, List.flatMap_singleton, if_neg (by simp),
            onward_one greedy hlater, dedup_stretch]
      | false =>
          rw [ends_chars_of_not_holds hc, List.takeWhile_cons_of_neg (by simp [hc])]
          cases greedy <;> rfl

/-! ### Choosing from a stretch -/

variable {β : Type} {f : Hit → Option β}

/-- A greedy stretch is taken whole if what follows allows it. -/
theorem findSome?_stretch_greedy {m : Nat} {b : β} (hm : m ≠ 0) (h : f ⟨m, []⟩ = some b) :
    (stretch true m).findSome? f = some b := by
  obtain ⟨n, rfl⟩ := Nat.exists_eq_succ_of_ne_zero hm
  have hlist : stretch true (n + 1) = ⟨n + 1, []⟩ :: stretch true n := by
    simp [stretch, List.range_succ]
  rw [Nat.succ_eq_add_one] at h ⊢
  rw [hlist, List.findSome?_cons, h]

/-- A lazy stretch is taken whole if what follows allows nothing shorter. -/
theorem findSome?_stretch_lazy {m : Nat} {b : β} (hm : m ≠ 0) (h : f ⟨m, []⟩ = some b)
    (hshort : ∀ n < m, f ⟨n, []⟩ = none) : (stretch false m).findSome? f = some b := by
  obtain ⟨n, rfl⟩ := Nat.exists_eq_succ_of_ne_zero hm
  have hlist : stretch false (n + 1) = stretch false n ++ [⟨n + 1, []⟩] := by
    simp [stretch, List.range_succ]
  have hnone : (stretch false n).findSome? f = none := by
    refine List.findSome?_eq_none_iff.2 fun hit hhit => ?_
    obtain ⟨k, hk, rfl⟩ := mem_stretch hhit
    exact hshort (k + 1) (by omega)
  rw [Nat.succ_eq_add_one] at h ⊢
  rw [hlist, List.findSome?_append, hnone, List.findSome?_singleton, h]
  rfl

end RouteEngine.Regex
