import RouteEngine.Pattern.Parser
import RouteEngine.Proofs.Outcome
import RouteEngine.Regex.Parser
import RouteEngine.Regex.Quote

/-!
How the expression of a path is read. The text of such an expression is made of quoted characters,
captures around a source of their own, and groups that may be left out; each is read as a unit and
leaves the rest alone. The statements take a successful reading apart and say nothing of the fuel:
a reader that had run out of it would not have succeeded.
-/

namespace RouteEngine.Regex

open Outcome

/-- No repetition stands at the beginning of the text. -/
def Settled (r : List Char) : Prop := ∀ c ∈ r.head?, c ∉ ['*', '+', '?', '\x7b']

theorem settled_nil : Settled [] := by
  simp [Settled]

theorem settled_cons {c : Char} (h : c ∉ ['*', '+', '?', '\x7b']) (r : List Char) :
    Settled (c :: r) := by
  intro d hd
  cases hd
  exact h

theorem settled_quoteChar (c : Char) (r : List Char) : Settled (quoteChar c ++ r) := by
  unfold quoteChar
  split
  · exact settled_cons (by decide) _
  · next hmeta =>
      refine settled_cons (fun hc => hmeta ?_) _
      simp only [List.mem_cons, List.not_mem_nil, or_false] at hc
      rcases hc with rfl | rfl | rfl | rfl <;> decide

theorem settled_quoteChars (cs : List Char) {r : List Char} (hr : Settled r) :
    Settled (quoteChars cs ++ r) := by
  cases cs with
  | nil => exact hr
  | cons c cs =>
      rw [quoteChars, List.flatMap_cons, List.append_assoc]
      exact settled_quoteChar c _

/-- Only in a verbose expression is anything skipped. -/
theorem skip_plain (cs : List Char) : skip {} cs = cs := rfl

theorem Row.deepest_le_depth (row : Row) : row.deepest ≤ row.depth := by
  unfold Row.depth
  split
  · exact Nat.le_refl _
  · exact Nat.le_succ _

theorem Row.deepest_le_depth_cons (depth : Nat) (row : Row) :
    row.deepest ≤ (row.cons depth).depth :=
  Nat.le_trans (Nat.le_max_right depth _) (Row.deepest_le_depth (row.cons depth))

/-! ### Units of a sequence -/

variable {n : Nat} {g : Groups} {x : Parsed} {r r' : List Char}

theorem parseChars_eq_ok {cs : List Char} {a : Regex} :
    parseChars cs = .ok a ↔
      ∃ depth, readWhole cs = .ok ⟨a, depth⟩ ∧ depth ≤ nestLimit ∧ a.weight ≤ weightLimit := by
  rw [parseChars, bind_eq_ok]
  constructor
  · rintro ⟨b, hb, h⟩
    split at h
    · cases h
    · next hdepth =>
        split at h
        · cases h
        · next hweight =>
            obtain rfl := pure_eq_ok.1 h
            exact ⟨b.depth, hb, Nat.le_of_not_lt hdepth, Nat.le_of_not_lt hweight⟩
  · rintro ⟨depth, ha, hdepth, hweight⟩
    refine ⟨_, ha, ?_⟩
    rw [if_neg (Nat.not_lt.2 hdepth), if_neg (Nat.not_lt.2 hweight)]
    rfl

-- A sequence in alternatives in a group that is repeated in a sequence.
example : (readWhole "(ab|c)*d".toList).toOption.map Part.depth = some 5 := by decide +kernel

/-- What is read of a text that is an expression. -/
theorem readAlternatives_of_parseChars {cs : List Char} {a : Regex} (h : parseChars cs = .ok a) :
    ∃ p, readAlternatives (4 * cs.length + 4) {} {} cs = .ok (p, []) ∧ p.regex = a ∧
      p.row.depth ≤ nestLimit := by
  obtain ⟨depth, hwhole, hdepth, -⟩ := parseChars_eq_ok.1 h
  obtain ⟨⟨p, rest⟩, hp, hwhole⟩ := bind_eq_ok.1 hwhole
  cases rest with
  | nil =>
      cases pure_eq_ok.1 hwhole
      exact ⟨p, hp, rfl, hdepth⟩
  | cons c rest => cases hwhole

theorem readRepeats_settled (h : Settled r) (n : Nat) (a : Part) :
    readRepeats {} n a r = .ok (a, r) := by
  cases n with
  | zero => rfl
  | succ n =>
      cases r with
      | nil => rfl
      | cons c r =>
          have hc := h c rfl
          simp only [List.mem_cons, List.not_mem_nil, or_false, not_or] at hc
          rw [readRepeats, skip_plain]
          split <;> simp_all

/-- Behind a unit stand its repetitions, then the rest of the sequence. -/
theorem readTail_eq_ok {f : Flags} {a : Part} (h : readTail n f g a r = .ok (x, r')) :
    ∃ m a' s b, n = m + 1 ∧ readRepeats f (r.length + 1) a r = .ok (a', s) ∧
      readSequence m f g s = .ok (b, r') ∧ x = b.cons a' := by
  cases n with
  | zero => simp [readTail] at h
  | succ n =>
      rw [readTail] at h
      obtain ⟨⟨a', s⟩, ha, hs⟩ := bind_eq_ok.1 h
      obtain ⟨⟨b, rest⟩, hb, hx⟩ := bind_eq_ok.1 hs
      cases pure_eq_ok.1 hx
      exact ⟨n, a', s, b, rfl, ha, hb, rfl⟩

theorem readTail_settled {a : Part} (hr : Settled r)
    (h : readTail n {} g a r = .ok (x, r')) :
    ∃ m b, readSequence m {} g r = .ok (b, r') ∧ x = b.cons a := by
  obtain ⟨m, a', s, b, -, hrepeats, hb, rfl⟩ := readTail_eq_ok h
  rw [readRepeats_settled hr] at hrepeats
  cases hrepeats
  exact ⟨m, b, hb, rfl⟩

theorem readEscape_of_isMeta {c : Char} (h : isMeta c = true) :
    readEscape {} (c :: r) = .ok (.literal c, r) := by
  simp only [isMeta, List.contains_eq_mem, List.mem_cons, List.not_mem_nil, or_false,
    decide_eq_true_eq] at h
  rcases h with rfl | rfl | rfl | rfl | rfl | rfl | rfl | rfl | rfl | rfl | rfl | rfl | rfl |
    rfl | rfl | rfl | rfl | rfl <;> rfl

/-- A quoted character is read as itself. -/
theorem readSequence_quoteChar {c : Char} (hr : Settled r)
    (h : readSequence n {} g (quoteChar c ++ r) = .ok (x, r')) :
    ∃ m b, readSequence m {} g r = .ok (b, r') ∧
      x = b.cons (.unit (.chars (.single c))) := by
  cases n with
  | zero => simp [readSequence] at h
  | succ n =>
      unfold quoteChar at h
      split at h
      · next hmeta =>
          rw [List.cons_append, List.singleton_append, readSequence, skip_plain] at h
          simp only [readEscape_of_isMeta hmeta] at h
          exact readTail_settled hr h
      · next hmeta =>
          have hplain : readSequence (n + 1) {} g (c :: r) =
              readTail n {} g (.unit (.chars (.single c))) r := by
            rw [readSequence, skip_plain]
            split <;> simp_all [isMeta]
            rfl
          rw [List.singleton_append, hplain] at h
          exact readTail_settled hr h

/-- A parenthesis without a question mark behind it opens a group with a number. -/
theorem readOpening_group (h : r.head? ≠ some '?') :
    readOpening {} g r = .ok ((.group g.next, { g with next := g.next + 1 }), r) := by
  cases r with
  | nil => rfl
  | cons c r =>
      have hc : c ≠ '?' := by simpa using h
      have hlook : startsLookAround (c :: r) = false := by simp [startsLookAround, hc]
      rw [readOpening, skip_plain, if_neg (by simp [hlook])]
      simp only
      split <;> simp_all [Groups.open]

/-- A closing parenthesis ends the sequence it stands in, and so does a bar. -/
theorem readSequence_end {c : Char} (hc : c = ')' ∨ c = '|')
    (h : readSequence n {} g (c :: r) = .ok (x, r')) :
    x = ⟨.empty, .empty, {}, g⟩ ∧ r' = c :: r := by
  cases n with
  | zero => simp [readSequence] at h
  | succ n =>
      rcases hc with rfl | rfl <;> rw [readSequence, skip_plain] at h <;> cases h <;>
        exact ⟨rfl, rfl⟩

theorem readSequence_close (h : readSequence n {} g (')' :: r) = .ok (x, r')) :
    x = ⟨.empty, .empty, {}, g⟩ ∧ r' = ')' :: r :=
  readSequence_end (.inl rfl) h

theorem readAlternatives_eq_ok {f : Flags} (h : readAlternatives n f g r = .ok (x, r')) :
    ∃ m a s, n = m + 1 ∧ readSequence m f g r = .ok (a, s) ∧
      ((s.head? ≠ some '|' ∧ x = a.alone ∧ r' = s) ∨
        ∃ u b, s = '|' :: u ∧ readAlternatives m a.flags a.groups u = .ok (b, r') ∧
          x = a.or b) := by
  cases n with
  | zero => simp [readAlternatives] at h
  | succ n =>
      rw [readAlternatives] at h
      obtain ⟨⟨a, s⟩, ha, h⟩ := bind_eq_ok.1 h
      refine ⟨n, a, s, rfl, ha, ?_⟩
      simp only at h
      split at h
      · next u =>
          obtain ⟨⟨b, w⟩, hb, h⟩ := bind_eq_ok.1 h
          cases pure_eq_ok.1 h
          exact .inr ⟨u, b, rfl, hb, rfl⟩
      · next hbar =>
          cases pure_eq_ok.1 h
          refine .inl ⟨?_, rfl, rfl⟩
          cases r' with
          | nil => simp
          | cons c u =>
              rintro ⟨⟩
              exact hbar u rfl

/-- A sequence that ends at a closing parenthesis is the only alternative there. -/
theorem readAlternatives_close {f : Flags} {t : List Char} {P : Parsed → Prop}
    (hbody : ∀ m y s, readSequence m f g t = .ok (y, s) → P y.alone ∧ s = ')' :: r)
    (h : readAlternatives n f g t = .ok (x, r')) : P x ∧ r' = ')' :: r := by
  obtain ⟨m, y, s, -, hy, hrest⟩ := readAlternatives_eq_ok h
  obtain ⟨hP, rfl⟩ := hbody m y s hy
  obtain ⟨-, rfl, rfl⟩ | ⟨u, b, hbar, -⟩ := hrest
  · exact ⟨hP, rfl⟩
  · cases hbar

/-- A capture is read as a group of its own number around its expression. -/
theorem readSequence_capture {source : List Char} (hsource : source.head? ≠ some '?')
    (hbody : ∀ m y s, readAlternatives m {} { g with next := g.next + 1 } (source ++ ')' :: r) =
      .ok (y, s) → s = ')' :: r)
    (hr : Settled r)
    (h : readSequence n {} g ('(' :: (source ++ ')' :: r)) = .ok (x, r')) :
    ∃ m m' y b,
      readAlternatives m {} { g with next := g.next + 1 } (source ++ ')' :: r) =
        .ok (y, ')' :: r) ∧
      readSequence m' {} y.groups r = .ok (b, r') ∧
      x = b.cons (y.captured g.next) := by
  cases n with
  | zero => simp [readSequence] at h
  | succ n =>
      rw [readSequence, skip_plain] at h
      simp only at h
      rw [readOpening_group (by cases source <;> simp_all)] at h
      obtain ⟨⟨o, s⟩, ho, h⟩ := bind_eq_ok.1 h
      cases ho
      simp only at h
      obtain ⟨⟨y, s⟩, hy, h⟩ := bind_eq_ok.1 h
      obtain rfl := hbody n y s hy
      simp only at h
      cases n with
      | zero => simp [readClosed] at h
      | succ n =>
          rw [readClosed] at h
          obtain ⟨m', b, hb, rfl⟩ := readTail_settled hr h
          exact ⟨n + 1, m', y, b, hy, hb, rfl⟩

theorem lazyMark_settled (hr : Settled r) : lazyMark r = (false, r) := by
  cases r with
  | nil => rfl
  | cons c r =>
      have hc := hr c rfl
      unfold lazyMark
      split
      · next heq =>
          cases heq
          exact absurd (by decide) hc
      · rfl

/-- A question mark makes an expression optional, unless the expression is too heavy. -/
theorem readRepeats_opt {a b : Part} {s : List Char} (hr : Settled r)
    (h : readRepeats {} (n + 1) a ('?' :: r) = .ok (b, s)) :
    b = ⟨.opt true a.regex, a.depth + 1⟩ ∧ s = r := by
  rw [readRepeats, skip_plain] at h
  simp only [lazyMark_settled hr] at h
  split at h
  · simp at h
  · rw [readRepeats_settled hr] at h
    cases h
    exact ⟨rfl, rfl⟩

theorem readTail_opt {a : Part} (hr : Settled r)
    (h : readTail n {} g a ('?' :: r) = .ok (x, r')) :
    ∃ m b, readSequence m {} g r = .ok (b, r') ∧
      x = b.cons ⟨.opt true a.regex, a.depth + 1⟩ := by
  obtain ⟨m, a', s, b, -, hrepeats, hb, rfl⟩ := readTail_eq_ok h
  obtain ⟨rfl, rfl⟩ := readRepeats_opt hr hrepeats
  exact ⟨m, b, hb, rfl⟩

/-- One round or more, as many as there are. -/
theorem readTail_plus {a : Part} (hr : Settled r) (hweight : a.regex.weight ≤ weightLimit)
    (h : readTail n {} g a ('+' :: r) = .ok (x, r')) :
    ∃ m b, readSequence m {} g r = .ok (b, r') ∧
      x = b.cons ⟨.plus true a.regex, a.depth + 1⟩ := by
  obtain ⟨m, a', s, b, -, hrepeats, hb, rfl⟩ := readTail_eq_ok h
  rw [readRepeats, skip_plain] at hrepeats
  simp only [lazyMark_settled hr] at hrepeats
  rw [if_neg (by simpa using hweight), readRepeats_settled hr] at hrepeats
  cases hrepeats
  exact ⟨m, b, hb, rfl⟩

/-- One round or more, as few as will do. -/
theorem readTail_plus_lazy {a : Part} (hr : Settled r) (hweight : a.regex.weight ≤ weightLimit)
    (h : readTail n {} g a ('+' :: '?' :: r) = .ok (x, r')) :
    ∃ m b, readSequence m {} g r = .ok (b, r') ∧
      x = b.cons ⟨.plus false a.regex, a.depth + 1⟩ := by
  obtain ⟨m, a', s, b, -, hrepeats, hb, rfl⟩ := readTail_eq_ok h
  rw [readRepeats, skip_plain] at hrepeats
  simp only [lazyMark] at hrepeats
  rw [if_neg (by simpa using hweight), readRepeats_settled hr] at hrepeats
  cases hrepeats
  exact ⟨m, b, hb, rfl⟩

/-- A group that may be left out has no number of its own. -/
theorem readSequence_optional {body : List Char}
    (hbody : ∀ m y s, readAlternatives m {} g (body ++ ')' :: '?' :: r) = .ok (y, s) →
      s = ')' :: '?' :: r)
    (hr : Settled r)
    (h : readSequence n {} g ('(' :: '?' :: ':' :: (body ++ ')' :: '?' :: r)) = .ok (x, r')) :
    ∃ m m' y b,
      readAlternatives m {} g (body ++ ')' :: '?' :: r) = .ok (y, ')' :: '?' :: r) ∧
      readSequence m' {} y.groups r = .ok (b, r') ∧
      x = b.cons ⟨.opt true y.regex, y.enclosed.depth + 1⟩ := by
  cases n with
  | zero => simp [readSequence] at h
  | succ n =>
      rw [readSequence, skip_plain] at h
      simp only at h
      obtain ⟨⟨⟨opening, g'⟩, s⟩, hopening, h⟩ := bind_eq_ok.1 h
      cases hopening
      simp only at h
      obtain ⟨⟨y, s⟩, hy, h⟩ := bind_eq_ok.1 h
      obtain rfl := hbody n y s hy
      simp only at h
      cases n with
      | zero => simp [readClosed] at h
      | succ n =>
          rw [readClosed] at h
          obtain ⟨m', b, hb, rfl⟩ := readTail_opt hr h
          exact ⟨n + 1, m', y, b, hy, hb, rfl⟩

/-- The end of an anchored expression. -/
theorem readSequence_dollar (h : readSequence n {} g ['$'] = .ok (x, r')) :
    x.regex = .concat (.look .textEnd) .empty ∧ r' = [] := by
  cases n with
  | zero => simp [readSequence] at h
  | succ n =>
      rw [readSequence, skip_plain] at h
      obtain ⟨m, b, hb, rfl⟩ := readTail_settled settled_nil h
      cases m with
      | zero => simp [readSequence] at hb
      | succ m =>
          rw [readSequence, skip_plain] at hb
          cases hb
          exact ⟨rfl, rfl⟩

theorem readSequence_nil (h : readSequence n {} g [] = .ok (x, r')) :
    x.regex = .empty ∧ r' = [] := by
  cases n with
  | zero => simp [readSequence] at h
  | succ n =>
      rw [readSequence, skip_plain] at h
      cases h
      exact ⟨rfl, rfl⟩

end RouteEngine.Regex
