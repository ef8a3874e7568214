import RouteEngine.Constraint.Basic
import RouteEngine.Proofs.Pattern.Walk

/-!
Constraints and their expressions. A constraint that is put into a path is written as an
expression there, and elsewhere it is evaluated against a value. On a whole value the two say the
same (`evaluate_eq_isMatch`): an expression made of quoted texts takes up just these texts.
-/

namespace RouteEngine

open Outcome Regex Segments

namespace Regex

/-- One of the texts, the first preferred. -/
def choice : List (List Char) → Regex
  | [] => .empty
  | [t] => textThen t .empty
  | t :: u :: ts => .alt (textThen t .empty) (choice (u :: ts))

variable {texts : List (List Char)} {prev : Option Char} {s after : List Char}

theorem takes_textThen {text : List Char} :
    Takes (textThen text .empty) prev s after ↔ s = text := by
  rw [takes_textThen_after]
  simp [takes_empty]

theorem takes_choice (hne : texts ≠ []) : Takes (choice texts) prev s after ↔ s ∈ texts := by
  induction texts using choice.induct with
  | case1 => exact absurd rfl hne
  | case2 t => rw [choice, takes_textThen, List.mem_singleton]
  | case3 t u ts ih =>
      rw [choice, List.mem_cons, ← ih (by simp), ← @takes_textThen prev s after t]
      constructor
      · intro h
        cases h with
        | left h => exact .inl h
        | right h => exact .inr h
      · rintro (h | h)
        · exact .left h
        · exact .right h

theorem asksWords_textThen (text : List Char) : (textThen text .empty).asksWords = false := by
  induction text with
  | nil => rfl
  | cons c text ih => exact ih

theorem asksWords_choice (texts : List (List Char)) : (choice texts).asksWords = false := by
  induction texts using choice.induct with
  | case1 => rfl
  | case2 t => exact asksWords_textThen t
  | case3 t u ts ih =>
      rw [choice, asksWords, asksWords_textThen, ih]
      rfl

/-! ### Reading quoted texts -/

variable {n : Nat} {g : Groups} {x : Parsed} {r : List Char}

/-- Quoted texts with bars between them are read as a choice. -/
theorem readAlternatives_choice (hne : texts ≠ [])
    (h : readAlternatives n {} g (['|'].intercalate (texts.map quoteChars)) = .ok (x, r)) :
    x.regex = choice texts ∧ r = [] := by
  induction texts using choice.induct generalizing n x g with
  | case1 => exact absurd rfl hne
  | case2 t =>
      rw [List.map_singleton, List.intercalate_singleton, ← List.append_nil (quoteChars t)] at h
      obtain ⟨m, a, s, -, ha, hrest⟩ := readAlternatives_eq_ok h
      obtain ⟨m', b, hb, _, rfl⟩ := readSequence_quoteChars settled_nil ha
      obtain ⟨hempty, rfl⟩ := readSequence_nil hb
      obtain ⟨-, rfl, rfl⟩ | ⟨u, d, hbar, -⟩ := hrest
      · rw [choice, ← hempty]
        exact ⟨rfl, rfl⟩
      · cases hbar
  | case3 t u ts ih =>
      rw [List.map_cons, List.map_cons, List.intercalate_cons_cons, List.append_assoc] at h
      obtain ⟨m, a, s, -, ha, hrest⟩ := readAlternatives_eq_ok h
      obtain ⟨m', b, hb, _, rfl⟩ := readSequence_quoteChars (settled_cons (by decide) _) ha
      obtain ⟨rfl, rfl⟩ := readSequence_end (.inr rfl) hb
      obtain ⟨hbar, -⟩ | ⟨v, d, hv, hd, rfl⟩ := hrest
      · exact absurd rfl hbar
      · cases hv
        obtain ⟨hchoice, rfl⟩ := ih (by simp) hd
        rw [choice, ← hchoice]
        exact ⟨rfl, rfl⟩

theorem isMatch_choice (hne : texts ≠ []) (text : List Char) :
    (whole (choice texts)).isMatch text = decide (text ∈ texts) := by
  rw [Bool.eq_iff_iff, isMatch_whole, takes_choice hne, decide_eq_true_iff]

theorem parse_choice {values : List String} (hne : values ≠ []) {a : Regex}
    (h : parse ("|".intercalate (values.map quote)) = .ok a) :
    a = choice (values.map String.toList) := by
  obtain ⟨p, hp, rfl, -⟩ := readAlternatives_of_parseChars h
  have htext : ("|".intercalate (values.map quote)).toList =
      ['|'].intercalate ((values.map String.toList).map quoteChars) := by
    rw [String.toList_intercalate, List.map_map, List.map_map]
    congr 1
    exact List.map_congr_left fun v _ => String.toList_ofList
  rw [htext] at hp
  exact (readAlternatives_choice (by simpa using hne) hp).1

end Regex

namespace Constraint

variable {σ : Type}

/-- The constraint can be put into a path: it allows certain texts, or its expression is that of
its source. -/
def IsSegment : Constraint σ → Prop
  | literal _ => True
  | regex source whole => Regex.parseWhole source = .ok whole
  | set values => values ≠ []
  | presence _ => False
  | predicate _ => False

def asksWords : Constraint σ → Bool
  | regex _ whole => whole.asksWords
  | _ => false

variable {c : Constraint σ} {asked : String} {a : Regex}

theorem exists_segmentRegex? (hc : c.IsSegment) : ∃ asked, c.segmentRegex? = some asked := by
  cases c with
  | literal _ => exact ⟨_, rfl⟩
  | regex _ _ => exact ⟨_, rfl⟩
  | set _ => exact ⟨_, rfl⟩
  | presence _ => exact absurd hc id
  | predicate _ => exact absurd hc id

/-- The constraint allows just the texts of a list. -/
def Lists (c : Constraint σ) (values : List String) : Prop :=
  values ≠ [] ∧ c.asksWords = false ∧ ∀ value params r s,
    c.evaluate (some value) params r s = (decide (value ∈ values), s)

theorem lists_literal (expected : String) : (literal expected : Constraint σ).Lists [expected] := by
  refine ⟨by simp, rfl, fun value params r s => ?_⟩
  simp [evaluate]

theorem lists_set {values : List String} (hne : values ≠ []) :
    (set values : Constraint σ).Lists values := by
  refine ⟨hne, rfl, fun value params r s => ?_⟩
  simp [evaluate]

/-- The expression of a constraint is a choice of the texts that it allows, or the one that it
carries. -/
theorem choice_or_regex (hc : c.IsSegment) (hasked : c.segmentRegex? = some asked)
    (ha : Regex.parse asked = .ok a) (hw : Regex.parseWhole asked = .ok (whole a)) :
    (∃ values, c.Lists values ∧ a = choice (values.map String.toList)) ∨
      c = .regex asked (whole a) := by
  cases c with
  | literal expected =>
      obtain rfl : Regex.quote expected = asked := Option.some.inj hasked
      have hone : Regex.quote expected = "|".intercalate ([expected].map Regex.quote) := by
        rw [List.map_singleton, String.intercalate_singleton]
      rw [hone] at ha
      exact .inl ⟨[expected], lists_literal expected, parse_choice (by simp) ha⟩
  | regex source w =>
      obtain rfl : source = asked := Option.some.inj hasked
      have hsource : Regex.parseWhole source = .ok w := hc
      rw [hsource] at hw
      cases hw
      exact .inr rfl
  | set values =>
      obtain rfl : "|".intercalate (values.map Regex.quote) = asked := Option.some.inj hasked
      exact .inl ⟨values, lists_set hc, parse_choice hc ha⟩
  | presence _ => exact absurd hc id
  | predicate _ => exact absurd hc id

theorem asksWords_eq (hc : c.IsSegment) (hasked : c.segmentRegex? = some asked)
    (ha : Regex.parse asked = .ok a) (hw : Regex.parseWhole asked = .ok (whole a)) :
    a.asksWords = c.asksWords := by
  obtain ⟨values, ⟨-, hwords, -⟩, rfl⟩ | rfl := choice_or_regex hc hasked ha hw
  · rw [hwords, asksWords_choice]
  · exact (asksWords_whole a).symm

/-- On a whole value the expression of a constraint says what its evaluation does. -/
theorem evaluate_eq_isMatch (hc : c.IsSegment) (hasked : c.segmentRegex? = some asked)
    (ha : Regex.parse asked = .ok a) (hw : Regex.parseWhole asked = .ok (whole a)) (value : String)
    (params : Params) (r : Request) (s : σ) :
    c.evaluate (some value) params r s = ((whole a).isMatch value.toList, s) := by
  obtain ⟨values, ⟨hne, -, hlists⟩, rfl⟩ | rfl := choice_or_regex hc hasked ha hw
  · rw [hlists, isMatch_choice (by simpa using hne)]
    simp [String.toList_inj]
  · rfl

end Constraint

end RouteEngine
