import RouteEngine.Constraint.Basic
import RouteEngine.Proofs.Outcome
import RouteEngine.Proofs.Regex.Excerpt
import RouteEngine.Proofs.Regex.Numbering

/-!
Expressions for whole values. A constraint is made from the source of an expression by putting
anchors around it and reading the result; the source itself is not read. A source that is accepted
and closes no parenthesis that it does not open is an expression by itself, what comes out is this
expression between the anchors, and the constraint holds of just the values that it takes up from
their first character to their last (`evaluate_ofRegex`). But a source with a parenthesis that it
does not open can close the group around it, and then an anchor stands on one of its parts only
(`accepts_unopened_parenthesis`).
-/

namespace RouteEngine

open Outcome Regex

namespace Constraint

variable {σ : Type} {source : String} {c : Constraint σ}

theorem ofRegex_eq_ok (h : ofRegex source = .ok c) :
    ∃ w, Regex.parseWhole source = .ok w ∧ c = .regex source w := by
  unfold ofRegex at h
  split at h
  · cases h
  · split at h
    · next w hw =>
        cases h
        exact ⟨w, hw, rfl⟩
    · cases h

/-- An expression that is read between anchors holds of the values that it takes up alone. -/
theorem matchesValue_iff {w b : Regex} (hw : Regex.parseWhole source = .ok w)
    (hb : Regex.parse source = .ok b) (text : String) :
    w.matchesValue text = true ↔ Takes b none text.toList [] := by
  obtain ⟨p, hp, rfl⟩ := readAlone_of_parse hb
  rw [(parseChars_anchored hp hw).1]
  exact isMatch_whole

/-- A source that is accepted and does not close a parenthesis that it leaves unopened is an
expression by itself. The constraint made from it holds of a value exactly when the value is there
and the expression takes it up from its first character to its last; it leaves the state alone. -/
theorem evaluate_ofRegex (hc : ofRegex source = .ok c)
    (hopen : Regex.parse source ≠ .error .unopenedGroup) :
    ∃ b, Regex.parse source = .ok b ∧
      ∀ (value : Option String) (params : Params) (r : Request) (s : σ),
        (c.evaluate value params r s).2 = s ∧
          ((c.evaluate value params r s).1 = true ↔
            ∃ text, value = some text ∧ Takes b none text.toList []) := by
  obtain ⟨w, hw, rfl⟩ := ofRegex_eq_ok hc
  obtain ⟨b, hb⟩ := (Regex.parse_of_parseWhole hw).resolve_right hopen
  refine ⟨b, hb, fun value params r s => ⟨rfl, ?_⟩⟩
  cases value with
  | none => simp [evaluate]
  | some text => simpa [evaluate] using matchesValue_iff hw hb text

theorem evaluate_ofRegex_choice :
    ∃ (c : Constraint Unit) (b : Regex), ofRegex "a|b+" = .ok c ∧
      Regex.parse "a|b+" ≠ .error .unopenedGroup ∧ Regex.parse "a|b+" = .ok b ∧
      (c.evaluate (some "bb") .empty {} ()).1 = true ∧ Takes b none "bb".toList [] ∧
      ¬ Takes b none "ab".toList [] := by
  have hc : (ofRegex "a|b+" : Except RoutingError (Constraint Unit)).toOption.any (fun c =>
      (c.evaluate (some "bb") .empty {} ()).1 && !(c.evaluate (some "ab") .empty {} ()).1) =
        true := by
    decide +kernel
  obtain ⟨c, hc, heval⟩ := exists_ok_of_any hc
  have hread : (Regex.parse "a|b+").toOption.isSome = true := by decide +kernel
  have hopen : Regex.parse "a|b+" ≠ .error .unopenedGroup := by
    intro h
    rw [h] at hread
    cases hread
  obtain ⟨hin, hout⟩ := Bool.and_eq_true_iff.1 heval
  obtain ⟨b, hb, hholds⟩ := evaluate_ofRegex hc hopen
  refine ⟨c, b, hc, hopen, hb, hin, ?_, fun htakes => ?_⟩
  · obtain ⟨text, htext, htakes⟩ := (hholds (some "bb") .empty {} ()).2.1 hin
    cases htext
    exact htakes
  · have hab := (hholds (some "ab") .empty {} ()).2.2 ⟨_, rfl, htakes⟩
    rw [hab] at hout
    cases hout

/-- A source that is no expression by itself is accepted, for it closes the group around it; the
constraint then holds of a value that only begins with its first part. -/
theorem accepts_unopened_parenthesis :
    ∃ c : Constraint Unit, ofRegex "a)|(?:b" = .ok c ∧
      (∀ b, Regex.parse "a)|(?:b" ≠ .ok b) ∧ (c.evaluate (some "ax") .empty {} ()).1 = true := by
  have hc : (ofRegex "a)|(?:b" : Except RoutingError (Constraint Unit)).toOption.any (fun c =>
      (c.evaluate (some "ax") .empty {} ()).1) = true := by
    decide +kernel
  obtain ⟨c, hc, heval⟩ := exists_ok_of_any hc
  refine ⟨c, hc, fun b hb => ?_, heval⟩
  have hnone : (Regex.parse "a)|(?:b").toOption.isNone = true := by decide +kernel
  rw [hb] at hnone
  cases hnone

end Constraint

end RouteEngine
