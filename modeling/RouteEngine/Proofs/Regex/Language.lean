import Mathlib.Computability.Language
import RouteEngine.Proofs.Regex.Alone

/-!
The language of an expression. An expression without conditions on places does not look at what
surrounds a text, so the texts that it takes up are a language, built from the languages of its
parts: a concatenation is a product, an alternative a sum, and one round or more is one text of
the inside and any number of further ones.
-/

namespace RouteEngine.Regex

open scoped Computability

/-- The conditions on places in the expression. -/
def looks : Regex → List Look
  | .empty => []
  | .chars _ => []
  | .look l => [l]
  | .concat a b => a.looks ++ b.looks
  | .alt a b => a.looks ++ b.looks
  | .plus _ a => a.looks
  | .opt _ a => a.looks
  | .group _ a => a.looks

theorem looks_renumber (f : Nat → Nat) (r : Regex) : (r.renumber f).looks = r.looks := by
  induction r <;> simp_all [renumber, looks]

/-- The texts that the expression describes when every condition on a place is let through. -/
def language : Regex → Language Char
  | .empty => 1
  | .chars c => {text | ∃ x, c.holds x = true ∧ text = [x]}
  | .look _ => 1
  | .concat a b => a.language * b.language
  | .alt a b => a.language + b.language
  | .plus _ a => a.language * a.language∗
  | .opt _ a => 1 + a.language
  | .group _ a => a.language

variable {r : Regex} {prev : Option Char} {s after : List Char}

theorem mem_language_of_takes (h : Takes r prev s after) : s ∈ r.language := by
  induction h with
  | empty => exact Language.nil_mem_one
  | @chars cls c prev after h => exact ⟨c, h, rfl⟩
  | look => exact Language.nil_mem_one
  | concat ha hb iha ihb => exact Language.append_mem_mul iha ihb
  | left ha ih => exact (Language.mem_add ..).2 (.inl ih)
  | right hb ih => exact (Language.mem_add ..).2 (.inr ih)
  | @once greedy a prev s after ha ih =>
      have hmem := Language.append_mem_mul ih (Language.nil_mem_kstar a.language)
      rwa [List.append_nil] at hmem
  | @again greedy a prev s t after hs ha hrest iha ihrest =>
      -- The rounds behind the first are words of the product, which lies within the closure.
      have hle : a.language * a.language∗ ≤ a.language∗ := mul_kstar_le_kstar
      exact Language.append_mem_mul iha (hle ihrest)
  | skip => exact (Language.mem_add ..).2 (.inl Language.nil_mem_one)
  | some ha ih => exact (Language.mem_add ..).2 (.inr ih)
  | group ha ih => exact ih

/-- Rounds that follow one another. Only the first of them may take up nothing. -/
theorem takes_plus_flatten {greedy : Bool} {a : Regex} {L : Language Char}
    (ha : ∀ s ∈ L, ∀ prev after, Takes a prev s after) {rounds : List (List Char)}
    (hrounds : ∀ t ∈ rounds, t ∈ L ∧ t ≠ []) (hs : s ∈ L) :
    Takes (.plus greedy a) prev (s ++ rounds.flatten) after := by
  induction rounds generalizing s prev with
  | nil =>
      rw [List.flatten_nil, List.append_nil]
      exact .once (ha s hs prev after)
  | cons t rounds ih =>
      obtain ⟨⟨ht, -⟩, hrest⟩ := List.forall_mem_cons.1 hrounds
      rw [List.flatten_cons]
      by_cases hnil : s = []
      · rw [hnil, List.nil_append]
        exact ih hrest ht
      · exact .again hnil (ha s hs prev _) (ih hrest ht)

theorem takes_of_mem_language (hr : r.looks = []) (h : s ∈ r.language) (prev : Option Char)
    (after : List Char) : Takes r prev s after := by
  induction r generalizing s prev after with
  | empty =>
      obtain rfl := (Language.mem_one s).1 h
      exact .empty
  | chars cls =>
      obtain ⟨x, hx, rfl⟩ := h
      exact .chars hx
  | look l => exact absurd hr (List.cons_ne_nil _ _)
  | concat a b iha ihb =>
      obtain ⟨hra, hrb⟩ := List.append_eq_nil_iff.1 hr
      obtain ⟨u, hu, v, hv, rfl⟩ := Language.mem_mul.1 h
      exact .concat (iha hra hu prev _) (ihb hrb hv _ after)
  | alt a b iha ihb =>
      obtain ⟨hra, hrb⟩ := List.append_eq_nil_iff.1 hr
      rcases (Language.mem_add ..).1 h with h | h
      · exact .left (iha hra h prev after)
      · exact .right (ihb hrb h prev after)
  | plus greedy a ih =>
      obtain ⟨u, hu, v, hv, rfl⟩ := Language.mem_mul.1 h
      obtain ⟨rounds, rfl, hrounds⟩ := Language.mem_kstar_iff_exists_nonempty.1 hv
      exact takes_plus_flatten (fun s hs prev after => ih hr hs prev after) hrounds hu
  | opt greedy a ih =>
      rcases (Language.mem_add ..).1 h with h | h
      · obtain rfl := (Language.mem_one s).1 h
        exact .skip
      · exact .some (ih hr h prev after)
  | group i a ih => exact .group (ih hr h prev after)

theorem takes_iff_mem_language (hr : r.looks = []) : Takes r prev s after ↔ s ∈ r.language :=
  ⟨mem_language_of_takes, fun h => takes_of_mem_language hr h prev after⟩

theorem takes_renumber_add {d : Nat} :
    Takes (r.renumber (· + d)) prev s after ↔ Takes r prev s after :=
  ⟨Takes.of_renumber_add, fun h => h.renumber _⟩

end RouteEngine.Regex
