import RouteEngine.Proofs.Regex.Enclosed

/-!
Numbers of groups. A parser numbers groups in the order of their opening parentheses, so those
that it reads have the next number or a later one, and numbers below the one that it goes on with
(`numbersWithin`). The count of an expression looks at the groups that are left in it: where a
group is repeated no time at all, the count falls short of the numbers that were given out.
-/

namespace RouteEngine.Regex

open Outcome

variable {f : Flags} {g : Groups} {x : Parsed} {t r : List Char} {n k m : Nat} {a b : Regex}

/-- The groups of the expression have numbers from `k` up to `m`, without `m`. -/
def NumberedWithin (k m : Nat) (a : Regex) : Prop := ∀ i ∈ a.groupIndices, k ≤ i ∧ i < m

theorem NumberedWithin.mono {k' m' : Nat} (h : NumberedWithin k m a) (hk : k' ≤ k) (hm : m ≤ m') :
    NumberedWithin k' m' a :=
  fun i hi => ⟨Nat.le_trans hk (h i hi).1, Nat.lt_of_lt_of_le (h i hi).2 hm⟩

theorem numberedWithin_concat :
    NumberedWithin k m (.concat a b) ↔ NumberedWithin k m a ∧ NumberedWithin k m b :=
  List.forall_mem_append

theorem numberedWithin_alt :
    NumberedWithin k m (.alt a b) ↔ NumberedWithin k m a ∧ NumberedWithin k m b :=
  List.forall_mem_append

theorem numberedWithin_group {i : Nat} :
    NumberedWithin k m (.group i a) ↔ (k ≤ i ∧ i < m) ∧ NumberedWithin k m a :=
  List.forall_mem_cons

theorem numberedWithin_of_groupIndices_eq_nil (h : a.groupIndices = []) :
    NumberedWithin k m a := by
  simp [NumberedWithin, h]

/-! ### Repetitions -/

theorem numberedWithin_copies (h : NumberedWithin k m a) (n : Nat) :
    NumberedWithin k m (copies a n) := by
  induction n using copies.induct with
  | case1 => exact numberedWithin_of_groupIndices_eq_nil rfl
  | case2 => exact h
  | case3 n ih => exact numberedWithin_concat.2 ⟨h, ih⟩

theorem numberedWithin_upTo (greedy : Bool) (h : NumberedWithin k m a) (n : Nat) :
    NumberedWithin k m (upTo greedy a n) := by
  induction n using upTo.induct with
  | case1 => exact numberedWithin_of_groupIndices_eq_nil rfl
  | case2 => exact h
  | case3 n ih => exact numberedWithin_concat.2 ⟨h, ih⟩

theorem numberedWithin_repeated (greedy : Bool) (h : NumberedWithin k m a) (least : Nat)
    (most : Option Nat) : NumberedWithin k m (repeated greedy a least most) := by
  unfold repeated
  split
  · split
    · exact h
    · exact h
    · exact numberedWithin_concat.2 ⟨numberedWithin_copies h _, h⟩
  · split
    · exact numberedWithin_copies h _
    · split
      · exact numberedWithin_upTo greedy h _
      · exact numberedWithin_concat.2 ⟨numberedWithin_copies h _, numberedWithin_upTo greedy h _⟩

theorem numberedWithin_readRepeats {a b : Part} (h : readRepeats f n a t = .ok (b, r))
    (ha : NumberedWithin k m a.regex) : NumberedWithin k m b.regex := by
  induction n generalizing a t with
  | zero =>
      cases h
      exact ha
  | succ n ih =>
      obtain ⟨-, rfl, -⟩ | ⟨v, s, lazy, s', -, -, hrest⟩ := readRepeats_eq_ok h
      · exact ha
      · exact ih hrest (numberedWithin_repeated _ ha _ _)

/-! ### The readers -/

/-- Groups were read behind `g`. -/
def Parsed.Continues (g : Groups) (x : Parsed) : Prop :=
  g.next ≤ x.groups.next ∧ NumberedWithin g.next x.groups.next x.regex

/-- Only a group with a number takes one. -/
theorem Beginning.open_eq_ok {b : Beginning} {g₁ : Groups} {o : Opening}
    (h : b.open g = .ok (o, g₁)) :
    (o = .group g.next ∧ g₁.next = g.next + 1) ∨
      (g₁ = g ∧ ∃ f, o = .plain f ∨ o = .flags f) := by
  cases b with
  | group =>
      cases h
      exact .inl ⟨rfl, rfl⟩
  | named name =>
      obtain ⟨g₂, hname, h⟩ := bind_eq_ok.1 h
      cases pure_eq_ok.1 h
      exact .inl ⟨rfl, Groups.next_named hname⟩
  | plain f =>
      cases h
      exact .inr ⟨rfl, f, .inl rfl⟩
  | flags f =>
      cases h
      exact .inr ⟨rfl, f, .inr rfl⟩

structure NumbersWithin (n : Nat) : Prop where
  alternatives : ∀ {f g t x r}, readAlternatives n f g t = .ok (x, r) → x.Continues g
  sequence : ∀ {f g t x r}, readSequence n f g t = .ok (x, r) → x.Continues g
  closed : ∀ {f g a t x r k}, readClosed n f g a t = .ok (x, r) → k ≤ g.next →
    NumberedWithin k g.next a.regex → g.next ≤ x.groups.next ∧ NumberedWithin k x.groups.next x.regex
  tail : ∀ {f g a t x r k}, readTail n f g a t = .ok (x, r) → k ≤ g.next →
    NumberedWithin k g.next a.regex → g.next ≤ x.groups.next ∧ NumberedWithin k x.groups.next x.regex

namespace NumbersWithin

theorem zero : NumbersWithin 0 where
  alternatives h := by simp [readAlternatives] at h
  sequence h := by simp [readSequence] at h
  closed h := by simp [readClosed] at h
  tail h := by simp [readTail] at h

variable (ih : NumbersWithin n)

include ih

theorem tail_succ {a : Part} (h : readTail (n + 1) f g a t = .ok (x, r)) (hk : k ≤ g.next)
    (ha : NumberedWithin k g.next a.regex) :
    g.next ≤ x.groups.next ∧ NumberedWithin k x.groups.next x.regex := by
  obtain ⟨_, a', s, b, hn, hrepeats, hb, rfl⟩ := readTail_eq_ok h
  cases hn
  obtain ⟨hle, hsequence⟩ := ih.sequence hb
  exact ⟨hle, numberedWithin_concat.2
    ⟨(numberedWithin_readRepeats hrepeats ha).mono (Nat.le_refl k) hle,
      hsequence.mono hk (Nat.le_refl _)⟩⟩

theorem closed_succ {a : Part} (h : readClosed (n + 1) f g a t = .ok (x, r)) (hk : k ≤ g.next)
    (ha : NumberedWithin k g.next a.regex) :
    g.next ≤ x.groups.next ∧ NumberedWithin k x.groups.next x.regex := by
  obtain ⟨_, u, hn, rfl, htail⟩ := readClosed_eq_ok h
  cases hn
  exact ih.tail htail hk ha

theorem alternatives_succ (h : readAlternatives (n + 1) f g t = .ok (x, r)) :
    x.Continues g := by
  obtain ⟨_, a, s, hn, ha, hrest⟩ := readAlternatives_eq_ok h
  cases hn
  obtain ⟨hle, hfirst⟩ := ih.sequence ha
  obtain ⟨-, rfl, rfl⟩ | ⟨u, b, rfl, hb, rfl⟩ := hrest
  · exact ⟨hle, hfirst⟩
  · obtain ⟨hle', hsecond⟩ := ih.alternatives hb
    exact ⟨Nat.le_trans hle hle', numberedWithin_alt.2
      ⟨hfirst.mono (Nat.le_refl _) hle', hsecond.mono hle (Nat.le_refl _)⟩⟩

theorem opened {b : Beginning} {g₁ : Groups} {o : Opening} (ho : b.open g = .ok (o, g₁))
    (h : ReadsOpened n f g₁ o t x r) : x.Continues g := by
  obtain ⟨rfl, hnext⟩ | ⟨rfl, f', rfl | rfl⟩ := Beginning.open_eq_ok ho
  · obtain ⟨a, w, ha, hclosed⟩ := h
    obtain ⟨hle, hnumbered⟩ := ih.alternatives ha
    rw [hnext] at hle hnumbered
    have hgroup : NumberedWithin g.next a.groups.next (.group g.next a.regex) :=
      numberedWithin_group.2
        ⟨⟨Nat.le_refl _, hle⟩, hnumbered.mono (Nat.le_succ _) (Nat.le_refl _)⟩
    obtain ⟨hle', hx⟩ := ih.closed hclosed (Nat.le_of_succ_le hle) hgroup
    exact ⟨Nat.le_trans (Nat.le_of_succ_le hle) hle', hx⟩
  · obtain ⟨a, w, ha, hclosed⟩ := h
    obtain ⟨hle, hnumbered⟩ := ih.alternatives ha
    obtain ⟨hle', hx⟩ := ih.closed hclosed hle hnumbered
    exact ⟨Nat.le_trans hle hle', hx⟩
  · obtain ⟨b, hb, rfl⟩ := h
    have hread : b.Continues _ := ih.sequence hb
    exact hread

theorem sequence_succ (h : readSequence (n + 1) f g t = .ok (x, r)) : x.Continues g := by
  obtain ⟨_, hn, hcases⟩ := readSequence_eq_ok h
  cases hn
  obtain ⟨-, rfl, -⟩ | ⟨u, b, s, o, g₁, -, -, ho, hopened⟩ | ⟨c, u, a, s, -, -, ha, htail⟩ := hcases
  · exact ⟨Nat.le_refl _, numberedWithin_of_groupIndices_eq_nil rfl⟩
  · exact ih.opened ho hopened
  · refine ih.tail htail (Nat.le_refl _) ?_
    rw [Part.regex_unit]
    exact numberedWithin_of_groupIndices_eq_nil (groupIndices_readUnit ha)

end NumbersWithin

/-- Groups that are read have the next number or a later one, below the one after them. -/
theorem numbersWithin (n : Nat) : NumbersWithin n := by
  induction n with
  | zero => exact .zero
  | succ n ih =>
      exact ⟨ih.alternatives_succ, ih.sequence_succ, ih.closed_succ, ih.tail_succ⟩

/-! ### Sources by themselves -/

/-- A source by itself, with what is known behind it. -/
def readAlone (source : String) : Result (Parsed × List Char) :=
  readAlternatives (4 * source.toList.length + 4) {} {} source.toList

/-- Every group that the source has is left in its expression. -/
def keepsGroups (source : String) : Bool :=
  match readAlone source with
  | .ok (p, _) => p.regex.groupCount = p.groups.next
  | .error _ => true

theorem readAlone_of_parse {source : String} (h : parse source = .ok a) :
    ∃ p, readAlone source = .ok (p, []) ∧ p.regex = a := by
  obtain ⟨p, hp, hregex, -⟩ := readAlternatives_of_parseChars h
  exact ⟨p, hp, hregex⟩

/-- The groups of an expression are numbered from one. -/
theorem numberedWithin_of_readAlone {source : String} {p : Parsed}
    (h : readAlone source = .ok (p, [])) : NumberedWithin 1 p.groups.next p.regex :=
  ((numbersWithin _).alternatives h).2

end RouteEngine.Regex
