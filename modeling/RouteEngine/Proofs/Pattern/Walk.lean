import RouteEngine.Proofs.Pattern.Expression
import RouteEngine.Proofs.Regex.Stretch

/-!
Walks along a pattern. A walk says which text each capture stands for and which groups are
entered; its text is a path, and its spans are the groups of the expression that a match along it
closes. Matching and generating are both related to walks and not to each other: every match of
the expression of a tree goes along a walk (`walk_of_mem_ends`), and the match that the engine
prefers goes along a walk that leads it at every step (`run_expression`).
-/

namespace RouteEngine

open Regex

inductive Walk : Segments → Type
  | done : Walk .done
  | literal (text : String) {next : Segments} (w : Walk next) : Walk (.literal text next)
  | capture (c : Capture) (raw : List Char) {next : Segments} (w : Walk next) :
    Walk (.capture c next)
  | entered {inner next : Segments} (i : Walk inner) (w : Walk next) : Walk (.group inner next)
  | skipped (inner : Segments) {next : Segments} (w : Walk next) : Walk (.group inner next)

namespace Walk

variable {s : Segments}

/-- The path that the walk goes along. -/
def text {s : Segments} : Walk s → List Char
  | done => []
  | literal text w => text.toList ++ w.text
  | capture _ raw w => raw ++ w.text
  | entered i w => i.text ++ w.text
  | skipped _ w => w.text

/-- The groups of the expression in the order in which they are closed, when the walk begins at
`index` and its captures are numbered from `first`. -/
def spans {s : Segments} (first index : Nat) : Walk s → List Span
  | done => []
  | literal text w => w.spans first (index + text.toList.length)
  | capture _ raw w =>
    ⟨first, index, index + raw.length⟩ :: w.spans (first + 1) (index + raw.length)
  | @entered inner _ i w =>
    i.spans first index ++ w.spans (first + inner.captureCount) (index + i.text.length)
  | skipped inner w => w.spans (first + inner.captureCount) index

/-- The captures that take part, with their texts. -/
def captured {s : Segments} : Walk s → List (String × List Char)
  | done => []
  | literal _ w => w.captured
  | capture c raw w => (c.name, raw) :: w.captured
  | entered i w => i.captured ++ w.captured
  | skipped _ w => w.captured

/-- Every capture stands for one character or more, all of its own class. -/
def Fits {s : Segments} : Walk s → Prop
  | done => True
  | literal _ w => w.Fits
  | capture c raw w => raw ≠ [] ∧ (∀ x ∈ raw, c.charClass.holds x = true) ∧ w.Fits
  | entered i w => i.Fits ∧ w.Fits
  | skipped _ w => w.Fits

def hit (w : Walk s) (first index : Nat) : Hit := ⟨w.text.length, w.spans first index⟩

end Walk

/-! ### Expressions of single characters and captures -/

namespace Regex

variable {p : Place} {next : Place → Option Hit}

@[simp] theorem CharClass.holds_single {c d : Char} :
    (CharClass.single c).holds d = true ↔ d = c := by
  simp only [CharClass.single, CharClass.holds, Bool.and_eq_true, decide_eq_true_eq]
  constructor
  · rintro ⟨hcd, hdc⟩
    exact Char.le_antisymm hdc hcd
  · rintro rfl
    exact ⟨Char.le_refl d, Char.le_refl d⟩

theorem mem_ends_concat {a b : Regex} {h : Hit} (hh : h ∈ ends (.concat a b) p) :
    ∃ x ∈ ends a p, ∃ y ∈ ends b (p.advance x.length), h = x.andThen y := by
  rw [ends_concat] at hh
  obtain ⟨x, hx, hh⟩ := List.mem_flatMap.1 (mem_of_mem_dedup hh)
  obtain ⟨y, hy, rfl⟩ := List.mem_map.1 hh
  exact ⟨x, hx, y, hy, rfl⟩

theorem mem_ends_opt_greedy {a : Regex} {h : Hit} (hh : h ∈ ends (.opt true a) p) :
    h ∈ ends a p ∨ h = nothing := by
  rw [ends_opt_greedy] at hh
  simpa using mem_of_mem_dedup hh

theorem mem_ends_chars {cls : CharClass} {h : Hit} (hh : h ∈ ends (.chars cls) p) :
    ∃ c r, p.rest = c :: r ∧ cls.holds c = true ∧ h = ⟨1, []⟩ := by
  cases hrest : p.rest with
  | nil => simp [ends_chars_of_rest_nil hrest] at hh
  | cons c r =>
      rw [ends_chars hrest] at hh
      split at hh
      · next hc => exact ⟨c, r, rfl, hc, List.mem_singleton.1 hh⟩
      · simp at hh

end Regex

namespace Segments

variable {p : Place} {next : Place → Option Hit}

theorem run_textThen {text t : List Char} (after : Regex) (hp : p.rest = text ++ t) :
    run (textThen text after) p next =
      (run after (p.advance text.length) next).map (Hit.mk text.length []).andThen := by
  induction text generalizing p with
  | nil =>
      have hid : (Hit.mk 0 []).andThen = id := funext Hit.nothing_andThen
      rw [List.length_nil, p.advance_zero, hid, Option.map_id]
      rfl
  | cons c cs ih =>
      have hrest : (p.advance 1).rest = cs ++ t := by
        rw [p.rest_advance, hp]
        rfl
      rw [textThen, List.foldr_cons, run_concat,
        run_chars_of_holds (r := cs ++ t) hp (CharClass.holds_single.2 rfl)]
      rw [← textThen, ih hrest, ← p.advance_add, Option.map_map, List.length_cons,
        Nat.add_comm 1]
      congr 1
      funext h
      simp only [Function.comp, Hit.andThen, List.nil_append, Hit.mk.injEq, and_true]
      omega

theorem mem_ends_textThen {text : List Char} {after : Regex} {h : Hit}
    (hh : h ∈ ends (textThen text after) p) :
    p.rest = text ++ (p.advance text.length).rest ∧
      ∃ k ∈ ends after (p.advance text.length), h = (Hit.mk text.length []).andThen k := by
  induction text generalizing p h with
  | nil =>
      refine ⟨by simp, h, ?_, (Hit.nothing_andThen h).symm⟩
      rw [List.length_nil, p.advance_zero]
      exact hh
  | cons c cs ih =>
      obtain ⟨x, hx, y, hy, rfl⟩ := mem_ends_concat hh
      obtain ⟨d, r, hrest, hd, rfl⟩ := mem_ends_chars hx
      obtain ⟨hrest', k, hk, rfl⟩ := ih hy
      obtain rfl := CharClass.holds_single.1 hd
      have hadvance : (p.advance 1).advance cs.length = p.advance (d :: cs).length := by
        rw [← p.advance_add, List.length_cons, Nat.add_comm]
      rw [hadvance] at hrest' hk
      refine ⟨?_, k, hk, ?_⟩
      · have hone : (p.advance 1).rest = r := by
          rw [p.rest_advance, hrest]
          rfl
        rw [hrest, List.cons_append, ← hrest', hone]
      · rw [← Hit.andThen_assoc, List.length_cons, Nat.add_comm]
        rfl

theorem takes_textThen_after {text : List Char} {after : Regex} {prev : Option Char}
    {t rest : List Char} :
    Takes (textThen text after) prev t rest ↔
      ∃ v, t = text ++ v ∧ Takes after (lastOf prev text) v rest := by
  induction text generalizing prev t with
  | nil => simp [textThen]
  | cons c cs ih =>
      rw [textThen, List.foldr_cons, takes_concat]
      constructor
      · rintro ⟨u, v, rfl, hc, hcs⟩
        cases hc with
        | chars hd =>
            obtain rfl := CharClass.holds_single.1 hd
            obtain ⟨w, rfl, hafter⟩ := ih.1 hcs
            exact ⟨w, rfl, hafter⟩
      · rintro ⟨v, rfl, hafter⟩
        exact ⟨[c], cs ++ v, rfl, .chars (CharClass.holds_single.2 rfl), ih.2 ⟨v, rfl, hafter⟩⟩

theorem takes_textThen_concat {text : List Char} {a b : Regex} {prev : Option Char}
    {t rest : List Char} :
    Takes (textThen text (.concat a b)) prev t rest ↔
      Takes (.concat (textThen text a) b) prev t rest := by
  simp only [takes_concat, takes_textThen_after]
  constructor
  · rintro ⟨_, rfl, u, v, rfl, ha, hb⟩
    rw [← lastOf_append] at hb
    exact ⟨text ++ u, v, by simp, ⟨u, rfl, ha⟩, hb⟩
  · rintro ⟨_, v, rfl, ⟨u, rfl, ha⟩, hb⟩
    rw [lastOf_append] at hb
    exact ⟨u ++ v, by simp, u, v, rfl, ha, hb⟩

/-- The ends of a capture's expression, each with the span that the capture closes. -/
theorem ends_group_body (c : Capture) (i : Nat) :
    ends (.group i c.body) p =
      (stretch c.isGreedy (p.rest.takeWhile c.charClass.holds).length).map fun h =>
        ⟨h.length, h.spans ++ [⟨i, p.index, p.index + h.length⟩]⟩ := by
  have hempty : ∀ h : Hit, (ends .empty (p.advance h.length)).map h.andThen = [h] := by
    intro h
    simp
  rw [ends_group, Capture.body, ends_concat, ends_plus_chars]
  simp only [hempty, List.flatMap_singleton', dedup_stretch]

end Segments

namespace Walk

variable {s : Segments} {first : Nat} {p : Place}

/-! ### Every match goes along a walk -/

theorem hit_literal (text : String) (w : Walk s) (index : Nat) (k : Hit) :
    ((literal text w).hit first index).andThen k =
      (Hit.mk text.toList.length []).andThen
        ((w.hit first (index + text.toList.length)).andThen k) := by
  simp [hit, Walk.text, spans, Hit.andThen, Nat.add_assoc]

theorem hit_capture (c : Capture) (raw : List Char) (w : Walk s) (index : Nat) (k : Hit) :
    ((capture c raw w).hit first index).andThen k =
      (Hit.mk raw.length [⟨first, index, index + raw.length⟩]).andThen
        ((w.hit (first + 1) (index + raw.length)).andThen k) := by
  simp [hit, Walk.text, spans, Hit.andThen, Nat.add_assoc]

theorem hit_entered {inner : Segments} (i : Walk inner) (w : Walk s) (index : Nat) (k : Hit) :
    ((entered i w).hit first index).andThen k =
      (i.hit first index).andThen
        ((w.hit (first + inner.captureCount) (index + i.text.length)).andThen k) := by
  simp [hit, Walk.text, spans, Hit.andThen, Nat.add_assoc]

theorem hit_skipped (inner : Segments) (w : Walk s) (index : Nat) :
    (skipped inner w).hit first index = w.hit (first + inner.captureCount) index := rfl

/-- A stretch of a class, as the text it takes up. -/
theorem exists_raw {cls : CharClass} {rest : List Char} {n : Nat}
    (hn : n < (rest.takeWhile cls.holds).length) :
    ∃ raw, raw.length = n + 1 ∧ rest = raw ++ rest.drop (n + 1) ∧
      ∀ x ∈ raw, cls.holds x = true := by
  have hbegins : rest.take (n + 1) <+: rest.takeWhile cls.holds := by
    refine List.prefix_of_prefix_length_le (List.take_prefix _ _)
      (List.takeWhile_prefix _) ?_
    rw [List.length_take]
    omega
  have hle := (List.takeWhile_prefix cls.holds (l := rest)).length_le
  refine ⟨rest.take (n + 1), ?_, (List.take_append_drop _ _).symm, fun x hx => ?_⟩
  · rw [List.length_take]
    omega
  · exact List.all_eq_true.1 List.all_takeWhile x (hbegins.subset hx)

theorem mem_ends_group_body {c : Capture} {h : Hit}
    (hh : h ∈ ends (.group first c.body) p) :
    ∃ raw, raw ≠ [] ∧ (∀ x ∈ raw, c.charClass.holds x = true) ∧
      p.rest = raw ++ (p.advance raw.length).rest ∧
      h = ⟨raw.length, [⟨first, p.index, p.index + raw.length⟩]⟩ := by
  rw [Segments.ends_group_body] at hh
  obtain ⟨x, hx, rfl⟩ := List.mem_map.1 hh
  obtain ⟨n, hn, rfl⟩ := mem_stretch hx
  obtain ⟨raw, hlength, hrest, hholds⟩ := exists_raw hn
  refine ⟨raw, fun hnil => by simp [hnil] at hlength, hholds, ?_, ?_⟩
  · rw [p.rest_advance, hlength]
    exact hrest
  · rw [hlength]
    rfl

/-- Every match of the expression of a tree goes along a walk of the tree. -/
theorem walk_of_mem_ends {s : Segments} {first : Nat} {after : Regex} {p : Place} {h : Hit}
    (hh : h ∈ ends (s.expression first after) p) :
    ∃ w : Walk s, w.Fits ∧ p.rest = w.text ++ (p.advance w.text.length).rest ∧
      ∃ k ∈ ends after (p.advance w.text.length), h = (w.hit first p.index).andThen k := by
  -- A match of a piece and what comes after is a match of each; the induction is on the tree, and
  -- the walk of the rest begins where the match of the piece ended.
  induction s generalizing first after p h with
  | done =>
      refine ⟨.done, trivial, by simp [Walk.text], h, ?_, (Hit.nothing_andThen h).symm⟩
      simpa [Walk.text, Segments.expression] using hh
  | literal text next ih =>
      obtain ⟨hrest, k, hk, rfl⟩ := Segments.mem_ends_textThen hh
      obtain ⟨w, hfits, hw, k', hk', rfl⟩ := ih hk
      have hindex := Place.index_advance_append hrest
      rw [← p.advance_add, ← List.length_append] at hw hk'
      refine ⟨.literal text w, hfits, ?_, k', hk', ?_⟩
      · rw [Walk.text, List.append_assoc, ← hw, ← hrest]
      · rw [hit_literal, hindex]
  | capture c next ih =>
      obtain ⟨x, hx, y, hy, rfl⟩ := mem_ends_concat hh
      obtain ⟨raw, hne, hholds, hrest, rfl⟩ := mem_ends_group_body hx
      obtain ⟨w, hfits, hw, k, hk, rfl⟩ := ih hy
      have hindex := Place.index_advance_append hrest
      simp only at hw hk
      rw [← p.advance_add, ← List.length_append] at hw hk
      refine ⟨.capture c raw w, ⟨hne, hholds, hfits⟩, ?_, k, hk, ?_⟩
      · rw [Walk.text, List.append_assoc, ← hw, ← hrest]
      · rw [hit_capture, hindex]
  | group inner next ihInner ihNext =>
      obtain ⟨x, hx, y, hy, rfl⟩ := mem_ends_concat hh
      rcases mem_ends_opt_greedy hx with hx | rfl
      · obtain ⟨i, hifits, hi, z, hz, rfl⟩ := ihInner hx
        have hz : z = nothing := by simpa using hz
        subst hz
        rw [Hit.andThen_nothing] at hy ⊢
        obtain ⟨w, hfits, hw, k, hk, rfl⟩ := ihNext hy
        have hindex := Place.index_advance_append hi
        simp only [hit] at hw hk
        rw [← p.advance_add, ← List.length_append] at hw hk
        refine ⟨.entered i w, ⟨hifits, hfits⟩, ?_, k, hk, ?_⟩
        · rw [Walk.text, List.append_assoc, ← hw, ← hi]
        · rw [hit_entered, ← hindex]
          rfl
      · obtain ⟨w, hfits, hw, k, hk, rfl⟩ := ihNext hy
        have hzero : p.advance nothing.length = p := p.advance_zero
        rw [hzero] at hw hk ⊢
        exact ⟨.skipped inner w, hfits, hw, k, hk, by rw [hit_skipped, Hit.nothing_andThen]⟩

end Walk

end RouteEngine
