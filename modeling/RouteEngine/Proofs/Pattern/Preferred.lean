import RouteEngine.Proofs.Pattern.Walk

/-!
The match that the engine prefers. It enters every group it can and gives every capture as much as
it can, or, to a lazy glob, as little. A walk that leads the engine is one that makes the same
choice at every step: it leaves out a group only where the path has ended, its captures end where
their class does, and a lazy glob is followed by nothing that could match on. The induction is on
the walk; what follows the tree enters it as the text behind the walk and as the rest of the
expression.
-/

namespace RouteEngine

open Regex

namespace Segments

/-- The text of the tree with its parentheses removed. -/
def bareText : Segments → List Char
  | done => []
  | literal text next => text.toList ++ next.bareText
  | capture c next => c.kind.marker :: c.name.toList ++ next.bareText
  | group inner next => inner.bareText ++ next.bareText

variable {p : Place} {next : Place → Option Hit}

theorem run_opt_concat (a b : Regex) :
    run (.concat (.opt true a) b) p next =
      (run a p fun q => run b q next).or (run b p next) := by
  rw [run_concat, run_opt_greedy]

/-- A tree of nothing but groups takes up nothing. -/
theorem run_of_bareText_eq_nil {s : Segments} (hs : s.bareText = []) (first : Nat)
    {after : Regex} (hafter : ∀ q : Place, q.rest ≠ [] → run after q next = none)
    (hp : p.rest ≠ []) :
    run (s.expression first after) p next = none := by
  induction s generalizing first after p next with
  | done => exact hafter p hp
  | literal text tail ih =>
      obtain ⟨htext, htail⟩ := List.append_eq_nil_iff.1 hs
      rw [expression, htext]
      exact ih htail first hafter hp
  | capture c tail _ => exact absurd hs (List.cons_ne_nil _ _)
  | group inner tail ihInner ihTail =>
      obtain ⟨hs, hstail⟩ := List.append_eq_nil_iff.1 hs
      have htail (q : Place) (hq : q.rest ≠ []) :
          run (tail.expression (first + inner.captureCount) after) q next = none :=
        ihTail hstail _ hafter hq
      have hinner :
          run (inner.expression first .empty) p
            (fun q => run (tail.expression (first + inner.captureCount) after) q next) = none :=
        ihInner hs first (fun q hq => by rw [run_empty]; exact htail q hq) hp
      rw [expression, run_opt_concat, hinner, htail p hp]
      rfl

/-- A tree with a capture of its own matches nothing at the end of the path. -/
theorem ends_of_rest_nil {s : Segments} (hs : s.hasDirect = true) (first : Nat) (after : Regex)
    (hp : p.rest = []) : ends (s.expression first after) p = [] := by
  refine List.eq_nil_iff_forall_not_mem.2 fun h hh => ?_
  obtain ⟨w, hfits, hw, -⟩ := Walk.walk_of_mem_ends hh
  rw [hp] at hw
  have htext : w.text = [] := (List.append_eq_nil_iff.1 hw.symm).1
  clear hw hh
  induction w with
  | done => simp [hasDirect, directCaptures] at hs
  | literal text w ih => exact ih hs hfits (List.append_eq_nil_iff.1 htext).2
  | capture c raw w _ => exact hfits.1 (List.append_eq_nil_iff.1 htext).1
  | entered i w _ ih => exact ih hs hfits.2 (List.append_eq_nil_iff.1 htext).2
  | skipped inner w ih => exact ih hs hfits htext

end Segments

namespace Walk

/-- Before the text `tail` the walk makes the choices that the engine prefers. `final` holds where
nothing that could match on follows the tree. -/
def Leads {s : Segments} (tail : List Char) (final : Prop) : Walk s → Prop
  | done => True
  | literal _ w => w.Leads tail final
  | @capture c raw next w =>
    raw ≠ [] ∧ (∀ x ∈ raw, c.charClass.holds x = true) ∧
      (∀ x ∈ (w.text ++ tail).head?, c.charClass.holds x = false) ∧
      (c.isGreedy = false → next.bareText = [] ∧ final) ∧ w.Leads tail final
  | @entered _ next i w =>
    i.Leads (w.text ++ tail) (next.bareText = [] ∧ final) ∧ w.Leads tail final
  | skipped inner w => inner.hasDirect = true ∧ w.text ++ tail = [] ∧ w.Leads tail final

variable {p : Place} {next : Place → Option Hit}

theorem takeWhile_append_of_head {f : Char → Bool} {raw t : List Char}
    (hraw : ∀ x ∈ raw, f x = true) (ht : ∀ x ∈ t.head?, f x = false) :
    (raw ++ t).takeWhile f = raw := by
  have htail : t.takeWhile f = [] := by
    cases t with
    | nil => rfl
    | cons x t => exact List.takeWhile_cons_of_neg (by simp [ht x rfl])
  rw [List.takeWhile_append_of_pos hraw, htail, List.append_nil]

/-- A capture takes the whole text that its walk gives it. -/
theorem run_group_body {c : Capture} {i : Nat} {raw t : List Char} {k : Hit} (hne : raw ≠ [])
    (hraw : ∀ x ∈ raw, c.charClass.holds x = true)
    (ht : ∀ x ∈ t.head?, c.charClass.holds x = false) (hp : p.rest = raw ++ t)
    (hlazy : c.isGreedy = false → ∀ q : Place, q.rest ≠ [] → next q = none)
    (hnext : next (p.advance raw.length) = some k) :
    run (.group i c.body) p next =
      some ((Hit.mk raw.length [⟨i, p.index, p.index + raw.length⟩]).andThen k) := by
  have hlength : raw.length ≠ 0 := fun h => hne (List.length_eq_zero_iff.1 h)
  rw [run, Segments.ends_group_body, List.findSome?_map, hp, takeWhile_append_of_head hraw ht]
  cases hgreedy : c.isGreedy with
  | true =>
      refine findSome?_stretch_greedy hlength ?_
      simp only [Function.comp, hnext]
      rfl
  | false =>
      refine findSome?_stretch_lazy hlength ?_ fun n hn => ?_
      · simp only [Function.comp, hnext]
        rfl
      · have hrest : (p.advance n).rest ≠ [] := by
          rw [p.rest_advance, hp]
          intro hnil
          have := List.drop_eq_nil_iff.1 hnil
          rw [List.length_append] at this
          omega
        simp only [Function.comp, hlazy hgreedy _ hrest]
        rfl

/-- The engine goes along a walk that leads it, if it can go on behind the walk. -/
theorem run_expression {s : Segments} (w : Walk s) (first : Nat) (after : Regex) {p : Place}
    {next : Place → Option Hit} {tail : List Char} {final : Prop} {k : Hit}
    (hw : w.Leads tail final) (hp : p.rest = w.text ++ tail)
    (hfinal : final → ∀ q : Place, q.rest ≠ [] → run after q next = none)
    (hafter : run after (p.advance w.text.length) next = some k) :
    run (s.expression first after) p next = some ((w.hit first p.index).andThen k) := by
  induction w generalizing first after p next tail final k with
  | done =>
      rw [Walk.text, List.length_nil, p.advance_zero] at hafter
      rw [Segments.expression, hafter]
      exact congrArg some (Hit.nothing_andThen k).symm
  | literal text w ih =>
      rw [Walk.text, List.append_assoc] at hp
      rw [Walk.text, List.length_append, p.advance_add] at hafter
      have hrest := ih first after hw (Place.rest_advance_append hp) hfinal hafter
      rw [Segments.expression, Segments.run_textThen _ hp, hrest, hit_literal,
        Place.index_advance_append hp]
      rfl
  | @capture c raw tree w ih =>
      obtain ⟨hne, hraw, hhead, hlazy, hw⟩ := hw
      rw [Walk.text, List.append_assoc] at hp
      rw [Walk.text, List.length_append, p.advance_add] at hafter
      have hrest := ih (first + 1) after hw (Place.rest_advance_append hp) hfinal hafter
      -- A lazy glob tries every shorter text first; what comes after it accepts none of them.
      have hfail (hc : c.isGreedy = false) (q : Place) (hq : q.rest ≠ []) :
          run (tree.expression (first + 1) after) q next = none :=
        Segments.run_of_bareText_eq_nil (hlazy hc).1 (first + 1) (hfinal (hlazy hc).2) hq
      rw [Segments.expression, run_concat, run_group_body hne hraw hhead hp hfail hrest,
        hit_capture, Place.index_advance_append hp]
  | @entered inner tree i w ihInner ihNext =>
      obtain ⟨hi, hw⟩ := hw
      rw [Walk.text, List.append_assoc] at hp
      rw [Walk.text, List.length_append, p.advance_add] at hafter
      have hrest := ihNext (first + inner.captureCount) after hw
        (Place.rest_advance_append hp) hfinal hafter
      have hfail (h : tree.bareText = [] ∧ final) (q : Place) (hq : q.rest ≠ []) :
          run .empty q (fun q => run (tree.expression (first + inner.captureCount) after) q next) =
            none := by
        rw [run_empty]
        exact Segments.run_of_bareText_eq_nil h.1 _ (hfinal h.2) hq
      have hinner := ihInner first .empty hi hp hfail ((run_empty).trans hrest)
      rw [Segments.expression, Segments.run_opt_concat, hinner, hit_entered,
        Place.index_advance_append hp]
      rfl
  | skipped inner w ih =>
      obtain ⟨hdirect, hend, hw⟩ := hw
      have hrest := ih (first + inner.captureCount) after hw hp hfinal hafter
      have hinner := Segments.ends_of_rest_nil hdirect first .empty (hp.trans hend)
      rw [Segments.expression, Segments.run_opt_concat, run_of_ends_eq_nil hinner, hrest,
        hit_skipped]
      rfl

end Walk

end RouteEngine
