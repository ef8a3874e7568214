import RouteEngine.Proofs.Pattern.Filling

/-!
Groups one inside another. A path that goes on for as long as values are given has its optional
names in a chain: each in a group at the very end of the one before it. The group of a name is
written when the name is given, and the chain is left at the first name that is not, so what is
written are the names outside groups and an initial run of the others (`captured_eq`). The path
may be left there, for nothing follows.
-/

namespace RouteEngine.Segments

/-- The tree has the capture in front, perhaps behind a text, and then goes on as `rest`. -/
def HasFirst (s : Segments) (c : Capture) (rest : Segments) : Prop :=
  s = capture c rest ∨ ∃ text, s = literal text (capture c rest)

/-- Each of the names in a group that ends with the group of the next one. In front of a name may
stand a text, or none where that was put in front of the group. -/
inductive Chain : (names : List String) → Segments → Prop
  | done : Chain [] .done
  | group {c : Capture} {names : List String} {inner rest : Segments} (hc : c.kind = .dynamic)
    (hinner : inner.HasFirst c rest) (h : Chain names rest) :
    Chain (c.name :: names) (.group inner .done)

/-- The only groups of the tree are a chain at its end. -/
inductive EndsInChain (names : List String) : Segments → Prop
  | chain {s : Segments} (h : Chain names s) : EndsInChain names s
  | literal {next : Segments} (text : String) (h : EndsInChain names next) :
    EndsInChain names (.literal text next)
  | capture {next : Segments} (c : Capture) (h : EndsInChain names next) :
    EndsInChain names (.capture c next)

/-- The chain of the names behind slashes, such as that of `(/:year(/:month))`. -/
def slashChain : List String → Segments
  | [] => .done
  | name :: names =>
    .group (.literal "/" (.capture (Pattern.defaultCapture .dynamic name.toList)
      (slashChain names))) .done

variable {s rest : Segments} {names : List String} {values : Params} {wanted : String → Bool}

namespace HasFirst

variable {c : Capture} (h : s.HasFirst c rest)

include h

theorem directCaptures_eq : s.directCaptures = c :: rest.directCaptures := by
  rcases h with rfl | ⟨text, rfl⟩ <;> rfl

theorem every_iff {P : Capture → Prop} : s.Every P ↔ P c ∧ rest.Every P := by
  rcases h with rfl | ⟨text, rfl⟩ <;> rfl

theorem written_iff {given : String → Bool} {after : List Char} :
    s.Written given after ↔ rest.Written given after := by
  rcases h with rfl | ⟨text, rfl⟩ <;> rfl

theorem captured_eq : (s.filling values wanted).captured.map (·.1) =
    c.name :: (rest.filling values wanted).captured.map (·.1) := by
  rcases h with rfl | ⟨text, rfl⟩ <;> rfl

theorem occurrences_eq (optional : Bool) :
    s.occurrences optional = ⟨c, optional⟩ :: rest.occurrences optional := by
  rcases h with rfl | ⟨text, rfl⟩ <;> rfl

theorem bareText_ne_nil : s.bareText ≠ [] := by
  rcases h with rfl | ⟨text, rfl⟩ <;> simp [bareText]

end HasFirst

namespace Chain

theorem of_slashChain (names : List String) : Chain names (slashChain names) := by
  induction names with
  | nil => exact .done
  | cons name names ih =>
      have hname : (Pattern.defaultCapture .dynamic name.toList).name = name := String.ofList_toList
      have hgroup : Chain (_ :: names) (slashChain (name :: names)) := .group rfl (.inr ⟨_, rfl⟩) ih
      rwa [hname] at hgroup

theorem directCaptures_eq (h : Chain names s) : s.directCaptures = [] := by
  cases h <;> rfl

theorem names_eq (h : Chain names s) (optional : Bool) :
    (s.occurrences optional).map (·.capture.name) = names := by
  induction h generalizing optional with
  | done => rfl
  | group _ hinner _ ih =>
      rw [occurrences, hinner.occurrences_eq, List.map_append, List.map_cons, ih]
      simp [occurrences]

/-- A group of the chain is written when its name is given. -/
theorem includable_eq {c : Capture} {inner : Segments} (h : Chain names rest)
    (hinner : inner.HasFirst c rest) (given : String → Bool) :
    inner.includable given = given c.name := by
  have hdirect : inner.directCaptures = [c] := by
    rw [hinner.directCaptures_eq, h.directCaptures_eq]
  simp [includable, isWritable, hasDirect, hdirect]

theorem every_dynamic (h : Chain names s) : s.Every fun c => c.kind = .dynamic := by
  induction h with
  | done => trivial
  | group hc hinner _ ih => exact ⟨hinner.every_iff.2 ⟨hc, ih⟩, trivial⟩

/-- Nothing follows a group, so it may be left out. -/
theorem written (h : Chain names s) (given : String → Bool) : s.Written given [] := by
  induction h with
  | done => trivial
  | @group c _ inner _ _ hinner h ih =>
      refine ⟨?_, trivial⟩
      have hdirect : inner.hasDirect = true := by rw [hasDirect, hinner.directCaptures_eq]; rfl
      rw [h.includable_eq hinner]
      cases given c.name with
      | true => exact .inl ⟨rfl, hinner.written_iff.2 ih⟩
      | false => exact .inr ⟨rfl, hdirect, rfl⟩

/-- The names are written up to the first one that is not given. -/
theorem captured_eq (h : Chain names s) : (s.filling values wanted).captured.map (·.1) =
    names.takeWhile fun n => wanted n && values.contains n := by
  induction h with
  | done => rfl
  | group _ hinner h ih =>
      rw [filling, h.includable_eq hinner, List.takeWhile_cons]
      split
      · rw [Walk.captured, List.map_append, hinner.captured_eq, ih]
        simp [filling, Walk.captured]
      · rfl

end Chain

namespace EndsInChain

theorem names_eq (h : EndsInChain names s) (optional : Bool) :
    (s.occurrences optional).map (·.capture.name) = s.requiredNames ++ names := by
  induction h with
  | chain h => rw [h.names_eq, requiredNames, h.directCaptures_eq, List.map_nil, List.nil_append]
  | literal _ _ ih => exact ih
  | capture c _ ih =>
      rw [occurrences, List.map_cons, ih]
      rfl

theorem written (h : EndsInChain names s) (given : String → Bool) : s.Written given [] := by
  induction h with
  | chain h => exact h.written given
  | literal _ _ ih => exact ih
  | capture _ _ ih => exact ih

theorem captured_eq (h : EndsInChain names s) : (s.filling values wanted).captured.map (·.1) =
    s.requiredNames ++ names.takeWhile fun n => wanted n && values.contains n := by
  induction h with
  | chain h => rw [h.captured_eq, requiredNames, h.directCaptures_eq, List.map_nil, List.nil_append]
  | literal _ _ ih => exact ih
  | capture c _ ih =>
      rw [filling, Walk.captured, List.map_cons, ih]
      rfl

theorem bareText_ne_nil {n : String} (h : EndsInChain (n :: names) s) : s.bareText ≠ [] := by
  induction h with
  | chain h =>
      cases h with
      | group _ hinner _ => exact List.append_ne_nil_of_left_ne_nil hinner.bareText_ne_nil _
  | literal text _ ih => exact List.append_ne_nil_of_right_ne_nil _ ih
  | capture c _ _ => exact List.cons_ne_nil _ _

/-- A glob is separated at the end of the text only, where the chain stands. -/
theorem every_dynamic {n : String} (h : EndsInChain (n :: names) s) (hsep : s.Separated []) :
    s.Every fun c => c.kind = .dynamic := by
  induction h with
  | chain h => exact h.every_dynamic
  | literal _ _ ih => exact ih hsep
  | capture c h ih =>
      refine ⟨?_, ih hsep.2⟩
      cases hkind : c.kind with
      | dynamic => exact hkind
      | glob =>
          have hends := hsep.1
          rw [hkind, List.append_nil] at hends
          exact absurd (List.isEmpty_iff.1 hends) h.bareText_ne_nil

end EndsInChain

end RouteEngine.Segments
