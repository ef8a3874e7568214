import RouteEngine.Proofs.Regex.Takes

/-!
Texts on their own. Only conditions on places look at what surrounds a text, and at the border of
the text each of them holds the sooner when nothing is there, except for those that ask on which
side there is a word. So what an expression takes up in the middle of a text it matches as a whole
value too, unless it asks for words and a word goes on beyond the border (`Takes.alone`,
`isMatch_whole`). Numbering groups differently changes nothing in this.
-/

namespace RouteEngine.Regex

/-- The condition compares the two sides of a place as to words. -/
def Look.asksWords : Look → Bool
  | .wordBoundary _ => true
  | .notWordBoundary _ => true
  | .wordStart _ => true
  | .wordEnd _ => true
  | _ => false

def asksWords : Regex → Bool
  | .empty => false
  | .chars _ => false
  | .look l => l.asksWords
  | .concat a b => a.asksWords || b.asksWords
  | .alt a b => a.asksWords || b.asksWords
  | .plus _ a => a.asksWords
  | .opt _ a => a.asksWords
  | .group _ a => a.asksWords

/-- The neighbour `outer` of a text was taken away; it may be part of a word only when nothing
asks for words. -/
def Narrowed (words : Bool) (outer inner : Option Char) : Prop :=
  inner = outer ∨ inner = none ∧ (words = true → isWordAt false outer = false)

variable {words : Bool} {outer inner : Option Char}

theorem isWord_of_isAsciiWord {n : Nat} (h : isAsciiWord n = true) : isWord n = true := by
  have hascii : n < 128 := by
    simp only [isAsciiWord, Bool.or_eq_true, Bool.and_eq_true, decide_eq_true_eq] at h
    omega
  rw [isWord, if_pos hascii, h]

theorem Narrowed.isWordAt_eq (h : Narrowed words outer inner) (hw : words = true) (ascii : Bool) :
    isWordAt ascii inner = isWordAt ascii outer := by
  rcases h with rfl | ⟨rfl, hword⟩
  · rfl
  · cases outer with
    | none => rfl
    | some c =>
        have hc : isWord c.toNat = false := hword hw
        cases ascii with
        | false => exact hc.symm
        | true =>
            have hascii : isAsciiWord c.toNat = false := by
              rw [← Bool.not_eq_true] at hc ⊢
              exact fun h => hc (isWord_of_isAsciiWord h)
            exact hascii.symm

theorem Look.holds_of_narrowed {l : Look} {prev next prev' next' : Option Char}
    (h : l.holds prev next = true) (hw : l.asksWords = true → words = true)
    (hprev : Narrowed words prev prev') (hnext : Narrowed words next next') :
    l.holds prev' next' = true := by
  cases hl : l.asksWords with
  | true =>
      have hp := hprev.isWordAt_eq (hw hl)
      have hn := hnext.isWordAt_eq (hw hl)
      cases l <;> simp only [Look.asksWords, Bool.false_eq_true] at hl <;>
        simpa only [Look.holds, hp, hn] using h
  | false =>
      rcases hprev with rfl | ⟨rfl, -⟩ <;> rcases hnext with rfl | ⟨rfl, -⟩ <;> cases l <;>
        simp_all [Look.holds, Look.asksWords, isWordAt] <;> grind

theorem Narrowed.lastOf {prev prev' : Option Char} (h : Narrowed words prev prev')
    (s : List Char) : Narrowed words (lastOf prev s) (lastOf prev' s) := by
  cases s with
  | nil => exact h
  | cons c s => exact .inl rfl

theorem Narrowed.head? {after after' : List Char} (h : Narrowed words after.head? after'.head?)
    (s : List Char) : Narrowed words (s ++ after).head? (s ++ after').head? := by
  cases s with
  | nil => exact h
  | cons c s => exact .inl rfl

theorem Takes.narrow {r : Regex} {prev prev' : Option Char} {s after after' : List Char}
    (h : Takes r prev s after) (hw : r.asksWords = true → words = true)
    (hprev : Narrowed words prev prev') (hafter : Narrowed words after.head? after'.head?) :
    Takes r prev' s after' := by
  induction h generalizing prev' after' with
  | empty => exact .empty
  | chars h => exact .chars h
  | look h => exact .look (Look.holds_of_narrowed h hw hprev hafter)
  | @concat a b prev s t after ha hb iha ihb =>
      have hwa : a.asksWords = true → words = true := fun h => hw (by simp [asksWords, h])
      have hwb : b.asksWords = true → words = true := fun h => hw (by simp [asksWords, h])
      exact .concat (iha hwa hprev (hafter.head? t)) (ihb hwb (hprev.lastOf s) hafter)
  | left ha ih => exact .left (ih (fun h => hw (by simp [asksWords, h])) hprev hafter)
  | right hb ih => exact .right (ih (fun h => hw (by simp [asksWords, h])) hprev hafter)
  | once ha ih => exact .once (ih hw hprev hafter)
  | @again greedy a prev s t after hs ha hrest iha ihrest =>
      exact .again hs (iha hw hprev (hafter.head? t)) (ihrest hw (hprev.lastOf s) hafter)
  | skip => exact .skip
  | some ha ih => exact .some (ih hw hprev hafter)
  | group ha ih => exact .group (ih hw hprev hafter)

/-- What is taken up in the middle of a text is taken up alone, when no word goes on beyond it. -/
theorem Takes.alone {r : Regex} {prev : Option Char} {s after : List Char}
    (h : Takes r prev s after)
    (hwords : r.asksWords = true →
      isWordAt false prev = false ∧ isWordAt false after.head? = false) : Takes r none s [] :=
  h.narrow id (.inr ⟨rfl, fun h => (hwords h).1⟩)
    (.inr ⟨rfl, fun h => (hwords h).2⟩)

/-! ### Numbers of groups -/

def renumber (f : Nat → Nat) : Regex → Regex
  | .empty => .empty
  | .chars c => .chars c
  | .look l => .look l
  | .concat a b => .concat (a.renumber f) (b.renumber f)
  | .alt a b => .alt (a.renumber f) (b.renumber f)
  | .plus greedy a => .plus greedy (a.renumber f)
  | .opt greedy a => .opt greedy (a.renumber f)
  | .group i a => .group (f i) (a.renumber f)

theorem renumber_renumber (f g : Nat → Nat) (r : Regex) :
    (r.renumber f).renumber g = r.renumber (g ∘ f) := by
  induction r <;> simp_all [renumber]

theorem renumber_id (r : Regex) : r.renumber id = r := by
  induction r <;> simp_all [renumber]

theorem groupIndices_renumber (f : Nat → Nat) (r : Regex) :
    (r.renumber f).groupIndices = r.groupIndices.map f := by
  induction r <;> simp_all [renumber, groupIndices]

theorem Takes.renumber {r : Regex} {prev : Option Char} {s after : List Char}
    (h : Takes r prev s after) (f : Nat → Nat) : Takes (r.renumber f) prev s after := by
  induction h with
  | empty => exact .empty
  | chars h => exact .chars h
  | look h => exact .look h
  | concat _ _ iha ihb => exact .concat iha ihb
  | left _ ih => exact .left ih
  | right _ ih => exact .right ih
  | once _ ih => exact .once ih
  | again hs _ _ iha ihrest => exact .again hs iha ihrest
  | skip => exact .skip
  | some _ ih => exact .some ih
  | group _ ih => exact .group ih

theorem Takes.of_renumber_add {r : Regex} {d : Nat} {prev : Option Char} {s after : List Char}
    (h : Takes (r.renumber (· + d)) prev s after) : Takes r prev s after := by
  have hback := h.renumber (· - d)
  have hid : (fun n => n - d) ∘ (fun n => n + d) = id := by
    funext n
    simp
  rwa [renumber_renumber, hid, renumber_id] at hback

/-! ### Whole values -/

/-- The expression between anchors. -/
def whole (b : Regex) : Regex :=
  .concat (.look .textStart) (.concat b (.concat (.look .textEnd) .empty))

theorem asksWords_whole (b : Regex) : (whole b).asksWords = b.asksWords := by
  simp [whole, asksWords, Look.asksWords]

theorem weight_le_whole (b : Regex) : b.weight ≤ (whole b).weight := by
  simp only [whole, weight]
  omega

theorem isMatch_textStart (b : Regex) (text : List Char) :
    isMatch (.concat (.look .textStart) b) text = true ↔ ends b (.start text) ≠ [] := by
  rw [isMatch, search_textStart, ← head?_ends, Option.isSome_map]
  cases ends b (.start text) <;> simp

/-- Bound to the start of the text, an expression matches the texts that it takes up a beginning
of. -/
theorem isMatch_textStart_iff {b : Regex} {text : List Char} :
    isMatch (.concat (.look .textStart) b) text = true ↔
      ∃ s after, text = s ++ after ∧ Takes b none s after := by
  rw [isMatch_textStart]
  constructor
  · intro h
    obtain ⟨hit, hmem⟩ := List.exists_mem_of_ne_nil _ h
    obtain ⟨s, after, hrest, -, htakes⟩ := takes_of_mem_ends hmem
    exact ⟨s, after, hrest, htakes⟩
  · rintro ⟨s, after, rfl, htakes⟩
    obtain ⟨hit, hmem, -⟩ := exists_mem_ends_of_takes htakes 0
    exact List.ne_nil_of_mem hmem

theorem takes_textEnd {prev : Option Char} {s after : List Char} :
    Takes (.concat (.look .textEnd) .empty) prev s after ↔ s = [] ∧ after = [] := by
  constructor
  · intro h
    obtain ⟨u, v, rfl, hend, hempty⟩ := takes_concat.1 h
    obtain rfl := takes_empty.1 hempty
    cases hend with
    | look hend => exact ⟨rfl, by simpa [Look.holds] using hend⟩
  · rintro ⟨rfl, rfl⟩
    exact .concat (.look rfl) .empty

/-- Between anchors an expression matches the values that it takes up alone. -/
theorem isMatch_whole {b : Regex} {text : List Char} :
    isMatch (whole b) text = true ↔ Takes b none text [] := by
  rw [whole, isMatch_textStart_iff]
  constructor
  · rintro ⟨s, after, rfl, htakes⟩
    obtain ⟨u, v, rfl, hb, hend⟩ := takes_concat.1 htakes
    obtain ⟨rfl, rfl⟩ := takes_textEnd.1 hend
    simpa using hb
  · intro h
    exact ⟨text, [], by simp, takes_concat.2
      ⟨text, [], by simp, h, takes_textEnd.2 ⟨rfl, rfl⟩⟩⟩

end RouteEngine.Regex
