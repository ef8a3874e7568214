import Mathlib.Algebra.Order.Floor.Div
import RouteEngine.Text.Distance

/-!
Suggestions for a name that nobody knows. A name is offered when it is near the target or one of
the two begins the other, and of the names that qualify the first of the nearest is chosen
(`closest_eq_some`). The search goes from the end of the list to its beginning, so that a name
takes the place of one behind it unless that one is nearer (`firstNearest_cons`). Which name it is
depends on the order of the list only where several are at the least distance.
-/

namespace RouteEngine.Text

/-- The name may be meant by the target: a third of the target's characters, rounded up, are
misspelt at most, or one of the two is the beginning of the other. -/
def Qualifies (target name : String) : Prop :=
  editDistance target name ≤ target.length ⌈/⌉ 3 ∨
    target.toList <+: name.toList ∨ name.toList <+: target.toList

/-- The first of the names at the least distance of all that qualify. -/
def FirstNearest (target : String) (names : List String) (name : String) : Prop :=
  ∃ before after, names = before ++ name :: after ∧ Qualifies target name ∧
    (∀ m ∈ before, Qualifies target m → editDistance target name < editDistance target m) ∧
    ∀ m ∈ after, Qualifies target m → editDistance target name ≤ editDistance target m

variable {target name x : String} {names : List String}

theorem isCandidate_eq_true : isCandidate target name = true ↔ Qualifies target name := by
  have htolerance : tolerance target = target.length ⌈/⌉ 3 := by
    rw [tolerance, Nat.ceilDiv_eq_add_pred_div]
    rfl
  simp only [isCandidate, areNested, htolerance, Qualifies, Bool.or_eq_true, decide_eq_true_iff,
    List.isPrefixOf_iff_prefix]

namespace FirstNearest

theorem mem (h : FirstNearest target names name) : name ∈ names := by
  obtain ⟨before, after, rfl, -⟩ := h
  exact List.mem_append_right before List.mem_cons_self

theorem qualifies (h : FirstNearest target names name) : Qualifies target name := by
  obtain ⟨before, after, -, hqualifies, -⟩ := h
  exact hqualifies

theorem le (h : FirstNearest target names name) (hx : x ∈ names) (hqualifies : Qualifies target x) :
    editDistance target name ≤ editDistance target x := by
  obtain ⟨before, after, rfl, -, hbefore, hafter⟩ := h
  rcases List.mem_append.1 hx with hx | hx
  · exact (hbefore x hx hqualifies).le
  · rcases List.mem_cons.1 hx with rfl | hx
    · exact le_rfl
    · exact hafter x hx hqualifies

end FirstNearest

theorem not_firstNearest_nil : ¬ FirstNearest target [] name := by
  intro h
  cases h.mem

/-- One more name in front: it is the first of the nearest if none behind it is nearer, and the
others go before it only by being nearer. -/
theorem firstNearest_cons :
    FirstNearest target (x :: names) name ↔
      (name = x ∧ Qualifies target x ∧
        ∀ m ∈ names, Qualifies target m → editDistance target x ≤ editDistance target m) ∨
      (FirstNearest target names name ∧
        (Qualifies target x → editDistance target name < editDistance target x)) := by
  constructor
  · rintro ⟨_ | ⟨y, before⟩, after, hnames, hqualifies, hbefore, hafter⟩
    · obtain ⟨rfl, rfl⟩ := List.cons.inj hnames
      exact .inl ⟨rfl, hqualifies, hafter⟩
    · obtain ⟨rfl, rfl⟩ := List.cons.inj hnames
      obtain ⟨hfirst, hbefore⟩ := List.forall_mem_cons.1 hbefore
      exact .inr ⟨⟨before, after, rfl, hqualifies, hbefore, hafter⟩, hfirst⟩
  · rintro (⟨rfl, hqualifies, hnames⟩ | ⟨⟨before, after, rfl, hqualifies, hbefore, hafter⟩, hfirst⟩)
    · exact ⟨[], names, rfl, hqualifies, nofun, hnames⟩
    · exact ⟨x :: before, after, rfl, hqualifies, List.forall_mem_cons.2 ⟨hfirst, hbefore⟩, hafter⟩

/-! ### The search -/

/-- The name in front is chosen if it qualifies and what is chosen behind it is no nearer; else that
is chosen. -/
theorem closest_cons_eq_some :
    closest target (x :: names) = some name ↔
      (name = x ∧ Qualifies target x ∧
        ∀ other ∈ closest target names, editDistance target x ≤ editDistance target other) ∨
      (closest target names = some name ∧
        (Qualifies target x → editDistance target name < editDistance target x)) := by
  rw [closest, ← isCandidate_eq_true]
  cases closest target names with
  | none =>
      simp only [Option.ite_none_right_eq_some, Option.some.injEq, Option.not_mem_none,
        IsEmpty.forall_iff, implies_true, and_true, reduceCtorEq, false_and, or_false]
      rw [and_comm, eq_comm]
  | some other =>
      simp only [Option.mem_some_iff, forall_eq', Option.some.injEq]
      by_cases hfirst : isCandidate target x = true ∧
          editDistance target x ≤ editDistance target other
      · rw [if_pos (by simpa using hfirst), Option.some.injEq]
        constructor
        · rintro rfl
          exact .inl ⟨rfl, hfirst⟩
        · rintro (⟨rfl, -⟩ | ⟨rfl, hlt⟩)
          · rfl
          · exact absurd hfirst.2 (hlt hfirst.1).not_ge
      · rw [if_neg (by simpa using hfirst), Option.some.injEq]
        constructor
        · rintro rfl
          exact .inr ⟨rfl, fun hcandidate => not_le.1 fun hle => hfirst ⟨hcandidate, hle⟩⟩
        · rintro (⟨rfl, h⟩ | ⟨rfl, -⟩)
          · exact absurd h hfirst
          · rfl

theorem closest_eq_none : closest target names = none ↔ ∀ m ∈ names, ¬ Qualifies target m := by
  induction names with
  | nil => simp [closest]
  | cons x names ih =>
      rw [closest, List.forall_mem_cons, ← ih, ← isCandidate_eq_true]
      cases closest target names with
      | none => simp
      | some other =>
          simp only [reduceCtorEq, and_false, iff_false]
          split <;> exact Option.some_ne_none _

theorem closest_eq_some : closest target names = some name ↔ FirstNearest target names name := by
  induction names generalizing name with
  | nil => simp [closest, not_firstNearest_nil]
  | cons x names ih =>
      -- To be no farther than all names behind is to be no farther than the nearest of them.
      have hleast : (∀ other ∈ closest target names,
          editDistance target x ≤ editDistance target other) ↔
          ∀ m ∈ names, Qualifies target m → editDistance target x ≤ editDistance target m := by
        constructor
        · intro h m hm hqualifies
          cases hrest : closest target names with
          | none => exact absurd hqualifies (closest_eq_none.1 hrest m hm)
          | some other => exact (h other hrest).trans ((ih.1 hrest).le hm hqualifies)
        · intro h other hother
          have hnearest := ih.1 hother
          exact h other hnearest.mem hnearest.qualifies
      rw [closest_cons_eq_some, firstNearest_cons, hleast, ih]

/-- A name is suggested unless the target is empty or nothing qualifies, and it is then the first
of the nearest. Where the least distance is that of one name only, this name is suggested from any
list of the same names, however they are ordered. -/
theorem suggest_nearest (target : String) (names : List String) :
    (suggest target names = none ↔ target = "" ∨ ∀ m ∈ names, ¬ Qualifies target m) ∧
    (∀ name, suggest target names = some name ↔
      target ≠ "" ∧ FirstNearest target names name) ∧
    ∀ name, suggest target names = some name →
      (∀ m ∈ names, Qualifies target m →
        editDistance target m = editDistance target name → m = name) →
      ∀ others, (∀ m, m ∈ others ↔ m ∈ names) → suggest target others = some name := by
  have hnone : ∀ names, suggest target names = none ↔
      target = "" ∨ ∀ m ∈ names, ¬ Qualifies target m := by
    intro names
    rw [suggest, ite_eq_left_iff, closest_eq_none]
    exact or_iff_not_imp_left.symm
  have hsome : ∀ names name, suggest target names = some name ↔
      target ≠ "" ∧ FirstNearest target names name := by
    intro names name
    rw [suggest, Option.ite_none_left_eq_some, closest_eq_some]
  refine ⟨hnone names, hsome names, fun name hname honce others hothers => ?_⟩
  obtain ⟨hne, hnearest⟩ := (hsome names name).1 hname
  cases hother : suggest target others with
  | none =>
      rcases (hnone others).1 hother with hempty | hnot
      · exact absurd hempty hne
      · exact absurd hnearest.qualifies (hnot name ((hothers name).2 hnearest.mem))
  | some other =>
      obtain ⟨-, hnearest'⟩ := (hsome others other).1 hother
      have hmem : other ∈ names := (hothers other).1 hnearest'.mem
      have hle : editDistance target name ≤ editDistance target other :=
        hnearest.le hmem hnearest'.qualifies
      have hge : editDistance target other ≤ editDistance target name :=
        hnearest'.le ((hothers name).2 hnearest.mem) hnearest.qualifies
      rw [honce other hmem hnearest'.qualifies (Nat.le_antisymm hge hle)]

/-- Of three names that qualify for a misspelling one is nearest, in whatever order they come. -/
theorem suggest_nearest_project :
    suggest "projcet" ["projects", "project", "proj"] = some "project" ∧
      (∀ m ∈ ["projects", "project", "proj"], Qualifies "projcet" m →
        editDistance "projcet" m = editDistance "projcet" "project" → m = "project") ∧
      suggest "projcet" ["proj", "project", "projects"] = some "project" := by
  have hname : suggest "projcet" ["projects", "project", "proj"] = some "project" := by
    decide +kernel
  have hdistance : ∀ m ∈ ["projects", "project", "proj"],
      editDistance "projcet" m = editDistance "projcet" "project" → m = "project" := by
    decide +kernel
  have honce : ∀ m ∈ ["projects", "project", "proj"], Qualifies "projcet" m →
      editDistance "projcet" m = editDistance "projcet" "project" → m = "project" :=
    fun m hm _ => hdistance m hm
  have hothers : ∀ m, m ∈ ["proj", "project", "projects"] ↔ m ∈ ["projects", "project", "proj"] := by
    intro m
    simp only [List.mem_cons, List.not_mem_nil, or_false]
    tauto
  exact ⟨hname, honce, (suggest_nearest _ _).2.2 "project" hname honce _ hothers⟩

end RouteEngine.Text
