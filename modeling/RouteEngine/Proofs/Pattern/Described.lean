import RouteEngine.Proofs.Pattern.Filling
import RouteEngine.Proofs.Pattern.Language

/-!
What is written for a pattern is matched by it. A pattern without requirements describes the
texts of its walks on which every capture stands for characters of its own class
(`mem_language_iff_exists_walk`), and the walk that values pick is such a walk, because escaping
keeps a value within the class of its capture. Which groups are written does not matter, for the
language of a group has room for either choice; nor does what stands next to what, since the
language asks only that some division of the path fits. So `isMatch_generate` needs none of the
conditions under which the values can be told apart again.
-/

namespace RouteEngine

open Regex

/-! ### Captures without requirements -/

namespace Regex

open scoped Computability

variable {cls : CharClass} {s : List Char}

theorem mem_kstar_chars :
    s ∈ (chars cls).language∗ ↔ ∀ x ∈ s, cls.holds x = true := by
  rw [Language.mem_kstar]
  constructor
  · rintro ⟨rounds, rfl, hrounds⟩ x hx
    obtain ⟨round, hround, hx⟩ := List.mem_flatten.1 hx
    obtain ⟨y, hy, rfl⟩ := hrounds round hround
    exact List.mem_singleton.1 hx ▸ hy
  · intro h
    refine ⟨s.map ([·]), (List.flatMap_singleton' s).symm, fun round hround => ?_⟩
    obtain ⟨x, hx, rfl⟩ := List.mem_map.1 hround
    exact ⟨x, h x hx, rfl⟩

/-- One round or more of a class: characters of the class, at least one. -/
theorem mem_language_plus_chars {greedy : Bool} :
    s ∈ (plus greedy (chars cls)).language ↔ s ≠ [] ∧ ∀ x ∈ s, cls.holds x = true := by
  rw [language, Language.mem_mul]
  constructor
  · rintro ⟨_, ⟨x, hx, rfl⟩, rest, hrest, rfl⟩
    exact ⟨by simp, List.forall_mem_cons.2 ⟨hx, mem_kstar_chars.1 hrest⟩⟩
  · rintro ⟨hne, hs⟩
    obtain ⟨x, rest, rfl⟩ := List.exists_cons_of_ne_nil hne
    obtain ⟨hx, hrest⟩ := List.forall_mem_cons.1 hs
    exact ⟨[x], ⟨x, hx, rfl⟩, rest, mem_kstar_chars.2 hrest, rfl⟩

end Regex

theorem Capture.mem_language_of_isPlain {c : Capture} (hc : c.IsPlain) {raw : List Char} :
    raw ∈ c.language ↔ raw ≠ [] ∧ ∀ x ∈ raw, c.charClass.holds x = true := by
  have hparse : Regex.parse c.regex = .ok c.inside := inside_eq_body hc ▸ parse_regex hc
  have hbody : c.body.language = (plus c.isGreedy (chars c.charClass)).language := mul_one _
  rw [language_eq hparse, inside_eq_body hc, hbody, mem_language_plus_chars]

namespace Segments

/-! ### Walks and the language -/

/-- A tree without requirements describes the texts of the walks that fit it. -/
theorem mem_language_iff_exists_walk {s : Segments} (hs : s.Every Capture.IsPlain)
    {path : List Char} : path ∈ s.language ↔ ∃ w : Walk s, w.Fits ∧ w.text = path := by
  induction s generalizing path with
  | done =>
      rw [language, Language.mem_one]
      constructor
      · rintro rfl
        exact ⟨.done, trivial, rfl⟩
      · rintro ⟨⟨⟩, -, rfl⟩
        rfl
  | literal text next ih =>
      rw [language, Language.mem_mul]
      constructor
      · rintro ⟨_, rfl, _, hv, rfl⟩
        obtain ⟨w, hfits, rfl⟩ := (ih hs).1 hv
        exact ⟨.literal text w, hfits, rfl⟩
      · rintro ⟨w, hfits, rfl⟩
        cases w with
        | literal _ w => exact ⟨text.toList, rfl, w.text, (ih hs).2 ⟨w, hfits, rfl⟩, rfl⟩
  | capture c next ih =>
      rw [language, Language.mem_mul]
      constructor
      · rintro ⟨raw, hraw, _, hv, rfl⟩
        obtain ⟨hne, hclass⟩ := (Capture.mem_language_of_isPlain hs.1).1 hraw
        obtain ⟨w, hfits, rfl⟩ := (ih hs.2).1 hv
        exact ⟨.capture c raw w, ⟨hne, hclass, hfits⟩, rfl⟩
      · rintro ⟨w, hfits, rfl⟩
        cases w with
        | capture _ raw w =>
            obtain ⟨hne, hclass, hfits⟩ := hfits
            have hraw := (Capture.mem_language_of_isPlain hs.1).2 ⟨hne, hclass⟩
            exact ⟨raw, hraw, w.text, (ih hs.2).2 ⟨w, hfits, rfl⟩, rfl⟩
  | group inner next ihInner ihNext =>
      rw [language, Language.mem_mul]
      constructor
      · rintro ⟨u, hu, _, hv, rfl⟩
        obtain ⟨w, hfits, rfl⟩ := (ihNext hs.2).1 hv
        rcases (Language.mem_add ..).1 hu with hu | hu
        · obtain rfl := (Language.mem_one u).1 hu
          exact ⟨.skipped inner w, hfits, rfl⟩
        · obtain ⟨i, hinner, rfl⟩ := (ihInner hs.1).1 hu
          exact ⟨.entered i w, ⟨hinner, hfits⟩, rfl⟩
      · rintro ⟨w, hfits, rfl⟩
        cases w with
        | entered i w =>
            have hi : i.text ∈ inner.language := (ihInner hs.1).2 ⟨i, hfits.1, rfl⟩
            exact ⟨i.text, (Language.mem_add ..).2 (.inr hi), w.text,
              (ihNext hs.2).2 ⟨w, hfits.2, rfl⟩, rfl⟩
        | skipped _ w =>
            exact ⟨[], (Language.mem_add ..).2 (.inl Language.nil_mem_one), w.text,
              (ihNext hs.2).2 ⟨w, hfits, rfl⟩, rfl⟩

/-- Escaped values fit, whichever groups are written. -/
theorem fits_filling {values : Params} (wanted : String → Bool) {s : Segments}
    (hsuits : s.Every (Capture.Suits values))
    (hdirect : ∀ c ∈ s.directCaptures, values.contains c.name = true) :
    (s.filling values wanted).Fits := by
  induction s with
  | done => trivial
  | literal text next ih => exact ih hsuits hdirect
  | capture c next ih =>
      obtain ⟨hc, hnext⟩ := List.forall_mem_cons.1 hdirect
      obtain ⟨v, hv⟩ := exists_value hc
      obtain ⟨hne, hpoint⟩ := hsuits.1 v hv
      rw [filling, Capture.emitted_of_get? hv]
      exact ⟨Capture.escape_ne_nil hne, fun x hx => Capture.holds_escape hpoint hx,
        ih hsuits.2 hnext⟩
  | group inner next ihInner ihNext =>
      rw [filling]
      split
      · next hincludable =>
          exact ⟨ihInner hsuits.1 (contains_of_includable hincludable), ihNext hsuits.2 hdirect⟩
      · exact ihNext hsuits.2 hdirect

end Segments

/-! ### Generated paths -/

namespace Pattern

open Outcome

/-- A pattern without requirements matches every path that it generates, whichever names are
wanted, as long as no value is empty and those of dynamic captures have no points. -/
theorem isMatch_generate {source : String} {p : Pattern} {values : Params}
    {wanted : String → Bool} {g : Generated} (hp : compile source .empty true = .ok p)
    (hvalues : ∀ o ∈ p.segments.occurrences false, ∀ v, values.get? o.capture.name = some v →
      v ≠ "" ∧ (o.capture.kind = .dynamic → '.' ∉ v.toList))
    (hg : p.generate values wanted = .ok g) : p.regex.isMatch g.path.toList = true := by
  have hlooks : NeverLooks .empty := by simp [NeverLooks, Dict.empty]
  obtain ⟨_, -, -, hmatch⟩ := isMatch_iff_mem_language hp hlooks
  obtain ⟨hdirect, hpath⟩ := path_of_generate hg
  have hsuits : p.segments.Every (Capture.Suits values) := Segments.every_of_occurrences hvalues
  have hfits := Segments.fits_filling wanted hsuits hdirect
  rw [hmatch, hpath, String.toList_ofList]
  exact (Segments.mem_language_iff_exists_walk (plain_of_compile hp).captures).2 ⟨_, hfits, rfl⟩

/-- A language and a book next to each other, the book again in a group, and a chapter in a group
of that group. -/
def chapterSource : String := "/:lang:book(/by/:book(/:chapter(.:format)))(/*rest)"

/-- The chapter is left out with its group, and what follows it is written. -/
theorem isMatch_generate_chapter :
    ∃ p g, compile chapterSource .empty true = .ok p ∧
      p.generate (.ofList [("lang", "en"), ("book", "a/b ?"), ("chapter", "7"), ("rest", "x/y.z")])
        (fun n => n ≠ "chapter") = .ok g ∧
      g.path = "/ena%2Fb%20%3F/by/a%2Fb%20%3F/x/y.z" ∧ p.regex.isMatch g.path.toList = true := by
  have hcheck : ((compile chapterSource .empty true).toOption.any fun p =>
      decide ((∀ o ∈ p.segments.occurrences false, o.capture.Suits
        (.ofList [("lang", "en"), ("book", "a/b ?"), ("chapter", "7"), ("rest", "x/y.z")])) ∧
      (p.generate (.ofList [("lang", "en"), ("book", "a/b ?"), ("chapter", "7"),
        ("rest", "x/y.z")]) (fun n => n ≠ "chapter")).toOption.map (·.path) =
          some "/ena%2Fb%20%3F/by/a%2Fb%20%3F/x/y.z")) = true := by
    decide +kernel
  obtain ⟨p, hp, h⟩ := exists_ok_of_any hcheck
  obtain ⟨hsuits, hpath⟩ := of_decide_eq_true h
  obtain ⟨g, hg, hpath⟩ := Option.map_eq_some_iff.1 hpath
  have hg := toOption_eq_some.1 hg
  exact ⟨p, g, hp, hg, hpath, isMatch_generate hp hsuits hg⟩

end Pattern

end RouteEngine
