import RouteEngine.Proofs.Pattern.Required
import RouteEngine.Proofs.Pattern.Walk
import RouteEngine.Proofs.Regex.Language

/-!
The language of a pattern. The expression that a pattern compiles to is written as text and read
back, with expressions asked for from outside in the middle of it. Nothing runs into its neighbours
there: the paths that are matched are the products, along the tree, of the texts of the literals
and the languages of the captures, where what a group describes may be left out.
-/

namespace RouteEngine

open Regex

namespace Capture

/-- The texts that the expression of the capture describes by itself. -/
def language (c : Capture) : Language Char :=
  {text | ∃ r, Regex.parse c.regex = .ok r ∧ text ∈ r.language}

theorem language_eq {c : Capture} (hc : Regex.parse c.regex = .ok c.inside) :
    c.language = c.inside.language := by
  ext text
  constructor
  · rintro ⟨r, hr, htext⟩
    cases hc.symm.trans hr
    exact htext
  · exact fun htext => ⟨c.inside, hc, htext⟩

end Capture

namespace Segments

/-- The paths that the tree describes. -/
def language : Segments → Language Char
  | done => 1
  | literal text next => {text.toList} * next.language
  | capture c next => c.language * next.language
  | group inner next => (1 + inner.language) * next.language

variable {count : Capture → Nat} {s : Segments} {first : Nat} {after : Regex} {prev : Option Char}
  {t rest : List Char}

/-- What follows a tree takes up what the tree leaves. -/
theorem takes_compiledBy :
    Takes (s.compiledBy count first after) prev t rest ↔
      Takes (.concat (s.compiledBy count first .empty) after) prev t rest := by
  induction s generalizing first prev t with
  | done => exact takes_empty_concat.symm
  | literal text next ih =>
      rw [compiledBy, compiledBy, ← takes_textThen_concat]
      simp only [takes_textThen_after, ih]
  | capture c next ih =>
      rw [compiledBy, compiledBy, takes_concat_assoc]
      exact takes_concat_congr fun _ _ => ih
  | group inner next _ ih =>
      rw [compiledBy, compiledBy, takes_concat_assoc]
      exact takes_concat_congr fun _ _ => ih

/-- Between anchors the expression of a tree matches what it takes up alone. -/
theorem isMatch_compiledBy {path : List Char} :
    isMatch (.concat (.look .textStart)
        (s.compiledBy count first (.concat (.look .textEnd) .empty))) path = true ↔
      Takes (s.compiledBy count first .empty) none path [] := by
  have hafter : ∀ t rest, Takes (s.compiledBy count first (.concat (.look .textEnd) .empty)) none
      t rest ↔ Takes (.concat (s.compiledBy count first .empty) (.concat (.look .textEnd) .empty))
        none t rest := fun _ _ => takes_compiledBy
  rw [isMatch_textStart_iff, ← isMatch_whole, whole, isMatch_textStart_iff]
  simp only [hafter]

/-- What the expression of a tree takes up is what the tree describes. -/
theorem takes_compiledBy_iff_mem_language
    (hs : s.Every fun c => Regex.parse c.regex = .ok c.inside ∧ c.inside.looks = []) :
    Takes (s.compiledBy count first .empty) prev t rest ↔ t ∈ s.language := by
  induction s generalizing first prev t rest with
  | done => exact takes_empty.trans (Language.mem_one t).symm
  | literal text next ih =>
      rw [compiledBy, takes_textThen_after, language, Language.mem_mul]
      simp only [ih hs]
      constructor
      · rintro ⟨v, rfl, hv⟩
        exact ⟨text.toList, rfl, v, hv, rfl⟩
      · rintro ⟨_, rfl, v, hv, rfl⟩
        exact ⟨v, rfl, hv⟩
  | capture c next ih =>
      obtain ⟨⟨hparse, hlooks⟩, hnext⟩ := hs
      rw [compiledBy, takes_concat, language, Language.mem_mul, Capture.language_eq hparse]
      simp only [takes_group, takes_renumber_add, takes_iff_mem_language hlooks, ih hnext]
      constructor
      · rintro ⟨u, v, rfl, hu, hv⟩
        exact ⟨u, hu, v, hv, rfl⟩
      · rintro ⟨u, hu, v, hv, rfl⟩
        exact ⟨u, v, rfl, hu, hv⟩
  | group inner next ihInner ihNext =>
      rw [compiledBy, takes_concat, language, Language.mem_mul]
      simp only [takes_opt, ihInner hs.1, ihNext hs.2, Language.mem_add, Language.mem_one]
      constructor
      · rintro ⟨u, v, rfl, hu, hv⟩
        exact ⟨u, hu, v, hv, rfl⟩
      · rintro ⟨u, hu, v, hv, rfl⟩
        exact ⟨u, v, rfl, hu, hv⟩

end Segments

namespace Pattern

open Outcome

variable {requirements : Dict String} {source : String} {anchored : Bool} {p : Pattern}

/-- No expression asked for has a condition on places. -/
def NeverLooks (requirements : Dict String) : Prop :=
  ∀ e ∈ requirements.entries, ∀ r ∈ (Regex.parse e.2).toOption, r.looks = []

instance (requirements : Dict String) : Decidable (NeverLooks requirements) :=
  inferInstanceAs (Decidable (∀ e ∈ requirements.entries, ∀ r ∈ (Regex.parse e.2).toOption, _))

/-- What is known of the conditions on places in the expressions asked for holds of every capture;
the expressions that captures have on their own have no conditions. -/
theorem looks_inside_of_compile (hp : compile source requirements anchored = .ok p)
    {P : List Look → Prop} (hnil : P [])
    (hlooks : ∀ e ∈ requirements.entries, ∀ r ∈ (Regex.parse e.2).toOption, P r.looks) :
    p.segments.Every fun c => Regex.parse c.regex = .ok c.inside ∧ P c.inside.looks := by
  refine ((requires_of_compile hp).and (compiledBy_of_compile hp).2).imp ?_
  rintro c ⟨hrequires, hparse⟩
  refine ⟨hparse, ?_⟩
  unfold Capture.Requires at hrequires
  split at hrequires
  · next asked hasked =>
      rw [hrequires] at hparse
      exact hlooks (c.name, asked) (Dict.get?_eq_some.1 hasked) _ (toOption_eq_some.2 hparse)
  · rw [Capture.inside_eq_body hrequires]
    exact hnil

/-- The compiled expression matches the paths that the tree of the pattern describes: each literal
stands for its text, each capture for a text of its own expression, and each group for nothing or
for what is inside. -/
theorem isMatch_iff_mem_language (hp : compile source requirements true = .ok p)
    (hlooks : NeverLooks requirements) :
    ∃ tree, readTree source = .ok tree ∧ p.segments = requireAll requirements tree ∧
      ∀ path : String,
        p.regex.isMatch path.toList = true ↔ path.toList ∈ p.segments.language := by
  obtain ⟨tree, _, _, htree, -, -, hsegments, -⟩ := compile_eq_ok hp
  refine ⟨tree, htree, hsegments, fun path => ?_⟩
  rw [(compiledBy_of_compile hp).1]
  have hinside := looks_inside_of_compile hp (P := fun looks => looks = []) rfl hlooks
  exact Segments.isMatch_compiledBy.trans (Segments.takes_compiledBy_iff_mem_language hinside)

/-- A post by its number, or the form for a new one. -/
def postRequirements : Dict String := .ofList [("id", "(?i)new|[0-9]+")]

/-- The bar and the flag of the expression asked for stay inside their capture. -/
theorem isMatch_iff_mem_language_posts :
    ∃ p, compile "/posts/:id(.:format)" postRequirements true = .ok p ∧
      NeverLooks postRequirements ∧ "/posts/NEW.json".toList ∈ p.segments.language ∧
      "/POSTS/new".toList ∉ p.segments.language := by
  have hmade : (compile "/posts/:id(.:format)" postRequirements true).toOption.any (fun p =>
      p.regex.isMatch "/posts/NEW.json".toList && !p.regex.isMatch "/POSTS/new".toList) = true := by
    decide +kernel
  obtain ⟨p, hp, hmade⟩ := exists_ok_of_any hmade
  obtain ⟨hmatch, hother⟩ := Bool.and_eq_true_iff.1 hmade
  have hlooks : NeverLooks postRequirements := by decide +kernel
  obtain ⟨_, -, -, hiff⟩ := isMatch_iff_mem_language hp hlooks
  refine ⟨p, hp, hlooks, (hiff "/posts/NEW.json").1 hmatch, fun hmem => ?_⟩
  rw [(hiff "/POSTS/new").2 hmem] at hother
  simp at hother

end Pattern

end RouteEngine
