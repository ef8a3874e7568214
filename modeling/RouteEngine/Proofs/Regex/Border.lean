import RouteEngine.Proofs.Regex.Language

/-!
Neighbours that make no difference. A condition on a place asks for the border of the text or of a
line, or on which side there is a word. An expression without conditions of the first kind takes up
the same texts wherever its neighbours are part of a word or not in the same way
(`Takes.of_alike`); between slashes, for one, it takes up what it takes up alone.
-/

namespace RouteEngine.Regex

/-- The condition asks where the text or a line begins or ends. -/
def Look.asksBorder : Look → Bool
  | .textStart | .textEnd | .lineStart | .lineEnd | .crlfStart | .crlfEnd => true
  | _ => false

/-- The expression asks nowhere for the border of the text or of a line. -/
def asksBorder (r : Regex) : Bool := r.looks.any Look.asksBorder

/-- The two neighbours are both part of a word, or both not. -/
def Alike (x y : Option Char) : Prop := ∀ ascii, isWordAt ascii x = isWordAt ascii y

variable {x y x' y' : Option Char}

theorem Alike.refl (x : Option Char) : Alike x x := fun _ => rfl

theorem Alike.symm (h : Alike x y) : Alike y x := fun ascii => (h ascii).symm

theorem alike_slash : Alike (some '/') none := by
  intro ascii
  cases ascii <;> decide +kernel

theorem Alike.lastOf (h : Alike x y) (s : List Char) : Alike (lastOf x s) (lastOf y s) := by
  cases s with
  | nil => exact h
  | cons c s => exact .refl _

theorem Alike.head? {after after' : List Char} (h : Alike after.head? after'.head?)
    (s : List Char) : Alike (s ++ after).head? (s ++ after').head? := by
  cases s with
  | nil => exact h
  | cons c s => exact .refl _

theorem Look.holds_of_alike {l : Look} (hl : l.asksBorder = false) (hprev : Alike x x')
    (hnext : Alike y y') : l.holds x y = l.holds x' y' := by
  cases l with
  | textStart | textEnd | lineStart | lineEnd | crlfStart | crlfEnd => cases hl
  | wordBoundary ascii | notWordBoundary ascii | wordStart ascii | wordEnd ascii
  | wordStartHalf ascii | wordEndHalf ascii =>
      simp only [Look.holds, hprev ascii, hnext ascii]

theorem Takes.of_alike {r : Regex} {prev prev' : Option Char} {s after after' : List Char}
    (h : Takes r prev s after) (hr : r.asksBorder = false) (hprev : Alike prev prev')
    (hafter : Alike after.head? after'.head?) : Takes r prev' s after' := by
  rw [asksBorder, List.any_eq_false] at hr
  -- Only the outermost neighbours are others. Behind a first part that took something up, and in
  -- front of a second one, the neighbours are in the text itself.
  induction h generalizing prev' after' with
  | empty => exact .empty
  | chars h => exact .chars h
  | look h =>
      have hl := Bool.eq_false_iff.2 (hr _ (List.mem_singleton_self _))
      exact .look (Look.holds_of_alike hl hprev hafter ▸ h)
  | @concat a b prev s t after _ _ iha ihb =>
      obtain ⟨hra, hrb⟩ := List.forall_mem_append.1 hr
      exact .concat (iha hra hprev (hafter.head? t)) (ihb hrb (hprev.lastOf s) hafter)
  | left _ ih => exact .left (ih (List.forall_mem_append.1 hr).1 hprev hafter)
  | right _ ih => exact .right (ih (List.forall_mem_append.1 hr).2 hprev hafter)
  | once _ ih => exact .once (ih hr hprev hafter)
  | @again greedy a prev s t after hs _ _ iha ihrest =>
      exact .again hs (iha hr hprev (hafter.head? t)) (ihrest hr (hprev.lastOf s) hafter)
  | skip => exact .skip
  | some _ ih => exact .some (ih hr hprev hafter)
  | group _ ih => exact .group (ih hr hprev hafter)

/-- Between neighbours that belong to no word the expression takes up what it takes up alone. -/
theorem takes_iff_alone {r : Regex} (hr : r.asksBorder = false) {prev : Option Char}
    {s after : List Char} (hprev : Alike prev none) (hafter : Alike after.head? none) :
    Takes r prev s after ↔ Takes r none s [] :=
  ⟨fun h => h.of_alike hr hprev hafter, fun h => h.of_alike hr hprev.symm hafter.symm⟩

end RouteEngine.Regex
