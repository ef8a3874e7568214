import RouteEngine.Proofs.Route.Enforced

/-!
Which expression a built route asks of a captured name. A constraint in force on the name goes
before what the declaration requires of it, also when the constraint is one of a frame around the
declaration. So a route asks for what its own declaration states exactly when the declaration has
a constraint on the name, or the frames have none there with another expression
(`asksFor_innermost`).
-/

namespace RouteEngine

open Outcome

namespace Pattern

variable {p : Pattern} {requirements : Dict String} {source name asked : String} {anchored : Bool}

/-- Each capture of the name has the expression, and values for the name are held against it. -/
def AsksFor (p : Pattern) (name asked : String) : Prop :=
  (p.segments.Every fun c => c.name = name → c.regex = asked) ∧
    ∃ w, Regex.parseWhole asked = .ok w ∧ p.requirement? name = some w

theorem exists_occurrence_of_mem_names (h : name ∈ p.names) :
    ∃ o ∈ p.segments.occurrences false, o.capture.name = name :=
  List.mem_map.1 (Names.mem_distinct.1 h)

theorem asksFor_iff (hp : compile source requirements anchored = .ok p) (hname : name ∈ p.names) :
    p.AsksFor name asked ↔ requirements.get? name = some asked := by
  have hrequires := requires_of_compile hp
  have hrequired := requirement?_of_compile hp name
  constructor
  · rintro ⟨hevery, w, -, hw⟩
    obtain ⟨o, ho, rfl⟩ := exists_occurrence_of_mem_names hname
    have hregex := hevery.of_mem_occurrences ho rfl
    have hcapture := hrequires.of_mem_occurrences ho
    rw [hw] at hrequired
    unfold Capture.Requires at hcapture
    generalize requirements.get? o.capture.name = found at hcapture hrequired ⊢
    cases hrequired with
    | some _ => rw [← hregex, ← hcapture]
  · intro hget
    rw [hget] at hrequired
    refine ⟨hrequires.imp ?_, ?_⟩
    · rintro c hcapture rfl
      rwa [Capture.Requires, hget] at hcapture
    · generalize p.requirement? name = found at hrequired
      cases hrequired with
      | some hw => exact ⟨_, hw, rfl⟩

end Pattern

namespace Declaration

variable {σ : Type} {d : Declaration σ} {frames : List (ScopeFrame σ)} {key source : String}

/-- The declaration requires the expression of the name, or has a constraint there that comes to
it. -/
def States (d : Declaration σ) (key source : String) : Prop :=
  (key, source) ∈ d.requirements ∨ ∃ c, (key, c) ∈ d.constraints ∧ c.segmentRegex? = some source

/-- The declaration requires something of the name, or the constraint that it puts there last has
an expression. -/
def Restricts (d : Declaration σ) (key : String) : Prop :=
  (∃ source, (key, source) ∈ d.requirements) ∨
    ∃ c source, Dict.lookup key d.constraints.reverse = some c ∧ c.segmentRegex? = some source

/-- The declaration has no constraint on the name, and the innermost one of the frames comes to an
expression that the declaration does not state. -/
def Inherits (d : Declaration σ) (frames : List (ScopeFrame σ)) (key : String) : Prop :=
  (∀ e ∈ d.constraints, e.1 ≠ key) ∧
    ∃ c source, Dict.lookup key (frames.flatMap (·.constraints)).reverse = some c ∧
      c.segmentRegex? = some source ∧ ¬ d.States key source

theorem constraintOn_eq (d : Declaration σ) (frames : List (ScopeFrame σ)) (key : String) :
    d.constraintOn frames key = (Dict.lookup key d.constraints.reverse).or
      (Dict.lookup key (frames.flatMap (·.constraints)).reverse) := by
  rw [constraintOn, List.reverse_append, Dict.lookup_append]

theorem lookup_constraints_eq_none :
    Dict.lookup key d.constraints.reverse = none ↔ ∀ e ∈ d.constraints, e.1 ≠ key := by
  simp [Dict.lookup_eq_none]

theorem states_or_inherits (h : d.askedOf frames key = some source) :
    d.States key source ∨ d.Inherits frames key := by
  rcases Option.or_eq_some_iff.1 h with h | ⟨-, h⟩
  · obtain ⟨c, hc, hsource⟩ := Option.bind_eq_some_iff.1 h
    rw [constraintOn_eq] at hc
    rcases Option.or_eq_some_iff.1 hc with hown | ⟨hown, houter⟩
    · exact .inl (.inr ⟨c, List.mem_reverse.1 (Dict.mem_of_lookup hown), hsource⟩)
    · by_cases hstates : d.States key source
      · exact .inl hstates
      · exact .inr ⟨lookup_constraints_eq_none.1 hown, c, source, houter, hsource, hstates⟩
  · exact .inl (.inl (List.mem_reverse.1 (Dict.mem_of_lookup h)))

theorem askedOf_of_inherits (h : d.Inherits frames key) :
    ∃ source, d.askedOf frames key = some source ∧ ¬ d.States key source := by
  obtain ⟨hown, c, source, houter, hsource, hstates⟩ := h
  refine ⟨source, ?_, hstates⟩
  rw [askedOf, constraintOn_eq, lookup_constraints_eq_none.2 hown, Option.none_or, houter,
    Option.bind_some, hsource, Option.some_or]

theorem askedOf_of_restricts (h : d.Restricts key) (frames : List (ScopeFrame σ)) :
    ∃ source, d.askedOf frames key = some source := by
  rw [← Option.isSome_iff_exists, askedOf, Option.isSome_or, Bool.or_eq_true]
  rcases h with ⟨source, hrequired⟩ | ⟨c, source, hown, hsource⟩
  · refine .inr (Option.isSome_iff_ne_none.2 fun hnone => ?_)
    exact Dict.lookup_eq_none.1 hnone _ (List.mem_reverse.2 hrequired) rfl
  · refine .inl ?_
    rw [constraintOn_eq, hown, Option.some_or, Option.bind_some, hsource]
    rfl

section Built

variable {settings : Settings} {precedence : Nat} {r : Route σ} {name : String}

theorem asksFor_iff_askedOf
    (hr : d.build (Scope.root.nestAll frames) settings precedence = .ok (some r))
    (hname : name ∈ r.pattern.names) (source : String) :
    r.pattern.AsksFor name source ↔ d.askedOf frames name = some source := by
  obtain ⟨names, resolved, predicates, hnames, -, -, -, -, hpattern, -⟩ :=
    buildPermitted_eq_ok (buildPermitted_of_build hr)
  have hcaptured : names.contains name = true := by
    rw [← Pattern.names_of_compile hpattern hnames]
    exact List.contains_iff_mem.2 hname
  rw [Pattern.asksFor_iff hpattern hname, get?_requirementsIn_eq hcaptured]

/-- A built route asks of a name what the constraint in force there comes to, else what its
declaration requires last. That is always something the declaration states itself, unless it has
no constraint on the name and takes over one of the frames; and where the declaration restricts
the name, something is asked. -/
theorem asksFor_innermost
    (hr : d.build (Scope.root.nestAll frames) settings precedence = .ok (some r))
    (hname : name ∈ r.pattern.names) :
    (∀ source, r.pattern.AsksFor name source ↔ d.askedOf frames name = some source) ∧
    ((∀ source, r.pattern.AsksFor name source → d.States name source) ↔
      ¬ d.Inherits frames name) ∧
    (d.Restricts name → ∃ source, r.pattern.AsksFor name source) := by
  have hasks := asksFor_iff_askedOf hr hname
  refine ⟨hasks, ⟨fun hall hinherits => ?_, fun hinherits source hsource => ?_⟩, fun hd => ?_⟩
  · obtain ⟨source, hsource, hstates⟩ := askedOf_of_inherits hinherits
    exact hstates (hall source ((hasks source).2 hsource))
  · exact (states_or_inherits ((hasks source).1 hsource)).resolve_right hinherits
  · obtain ⟨source, hsource⟩ := askedOf_of_restricts hd frames
    exact ⟨source, (hasks source).2 hsource⟩

end Built

/-- A frame that wants names for posts. -/
def byName : ScopeFrame Unit := { constraints := [("id", expressed "[a-z]+")] }

def postsByNumber : Declaration Unit :=
  { path := "/posts/:id", target := some "posts#show"
    constraints := [("id", expressed "[0-9]+")] }

/-- A constraint of the declaration goes before the one around it. -/
theorem asksFor_innermost_postsByNumber :
    ∃ r, postsByNumber.build (Scope.root.nestAll [byName]) {} 0 = .ok (some r) ∧
      "id" ∈ r.pattern.names ∧ postsByNumber.Restricts "id" ∧
      ¬ postsByNumber.Inherits [byName] "id" ∧ r.pattern.AsksFor "id" "[0-9]+" ∧
      ∀ source, r.pattern.AsksFor "id" source → postsByNumber.States "id" source := by
  have hmade : (postsByNumber.build (Scope.root.nestAll [byName]) {} 0).toOption.any (fun built =>
      built.any fun r => decide ("id" ∈ r.pattern.names)) = true := by
    decide +kernel
  obtain ⟨built, hbuilt, hmade⟩ := exists_ok_of_any hmade
  obtain ⟨r, rfl, hname⟩ := (Option.any_eq_true _ _).1 hmade
  have hname' := of_decide_eq_true hname
  obtain ⟨hasks, hstates, -⟩ := asksFor_innermost hbuilt hname'
  have hown : ¬ postsByNumber.Inherits [byName] "id" :=
    fun h => h.1 _ (List.mem_singleton.2 rfl) rfl
  exact ⟨r, hbuilt, hname', .inr ⟨_, _, rfl, rfl⟩, hown, (hasks _).2 rfl, hstates.2 hown⟩

def postsRequired : Declaration Unit :=
  { path := "/posts/:id", target := some "posts#show", requirements := [("id", "[0-9]+")] }

/-- A constraint around the declaration goes before what the declaration requires. -/
theorem overrules_of_frame :
    ∃ r, postsRequired.build (Scope.root.nestAll [byName]) {} 0 = .ok (some r) ∧
      "id" ∈ r.pattern.names ∧ postsRequired.States "id" "[0-9]+" ∧
      r.pattern.AsksFor "id" "[a-z]+" ∧ ¬ postsRequired.States "id" "[a-z]+" ∧
      r.pattern.matchPath "/posts/42" = none := by
  have hmade : (postsRequired.build (Scope.root.nestAll [byName]) {} 0).toOption.any (fun built =>
      built.any fun r => decide ("id" ∈ r.pattern.names) &&
        (r.pattern.matchPath "/posts/42").isNone) = true := by
    decide +kernel
  obtain ⟨built, hbuilt, hmade⟩ := exists_ok_of_any hmade
  obtain ⟨r, rfl, hmade⟩ := (Option.any_eq_true _ _).1 hmade
  obtain ⟨hname, hmissed⟩ := Bool.and_eq_true_iff.1 hmade
  have hname' := of_decide_eq_true hname
  have hstates : ¬ postsRequired.States "id" "[a-z]+" := by
    simp [States, postsRequired]
  exact ⟨r, hbuilt, hname', .inl (List.mem_singleton.2 rfl),
    (asksFor_iff_askedOf hbuilt hname' _).2 rfl, hstates, Option.isNone_iff_eq_none.1 hmissed⟩

end Declaration

end RouteEngine
