import RouteEngine.Proofs.Outcome
import RouteEngine.Table.Recognition

/-!
What recognition answers. When the predicates of a table are pure, a route takes a request or
does not, whatever was asked before it, and both loops over the routes come to list operations:
one looks for the first match, the other gathers all of them. `recognizeFrom_eq` and
`acceptingFrom_eq` say so for any run of routes, the first with its accumulators; the outcome of
a recognition is then read off these two equations (`recognize_answers`).
-/

namespace RouteEngine

open Outcome

variable {σ : Type}

/-! ### Methods in order -/

namespace Names

theorem pairwise_insert {n : String} {ms : List String} (h : ms.Pairwise (· < ·)) :
    (insert n ms).Pairwise (· < ·) := by
  induction ms with
  | nil => simp [insert]
  | cons m ms ih =>
      obtain ⟨hm, hms⟩ := List.pairwise_cons.1 h
      rw [insert]
      split
      · next hlt =>
          refine List.pairwise_cons.2 ⟨fun k hk => ?_, h⟩
          rcases List.mem_cons.1 hk with rfl | hk
          · exact hlt
          · exact String.lt_trans hlt (hm k hk)
      · next hnlt =>
          split
          · exact h
          · next hne =>
              refine List.pairwise_cons.2 ⟨fun k hk => ?_, ih hms⟩
              rcases mem_insert.1 hk with rfl | hk
              · exact Dict.lt_of_not_lt_of_ne hnlt hne
              · exact hm k hk

theorem pairwise_ascending (ns : List String) : (ascending ns).Pairwise (· < ·) := by
  induction ns with
  | nil => exact .nil
  | cons n ns ih => exact pairwise_insert ih

end Names

namespace Method

theorem mem_ascending {m : Method} {ms : List Method} : m ∈ ascending ms ↔ m ∈ ms := by
  simp only [ascending, List.mem_map, Names.mem_ascending]
  constructor
  · rintro ⟨_, ⟨k, hk, rfl⟩, rfl⟩
    exact hk
  · intro hm
    exact ⟨m.name, ⟨m, hm, rfl⟩, rfl⟩

theorem pairwise_ascending (ms : List Method) :
    (ascending ms).Pairwise fun a b => a.name < b.name :=
  List.pairwise_map.2 (Names.pairwise_ascending _)

end Method

/-! ### Pure predicates -/

/-- The answer depends on the arguments alone, and the state stays as it is. -/
def Predicate.IsPure (p : Predicate σ) : Prop :=
  ∀ params request, ∃ b, ∀ s, p.call params request s = (b, s)

def Constraint.IsPure (c : Constraint σ) : Prop := ∀ p, c = .predicate p → p.IsPure

def Route.IsPure (r : Route σ) : Prop := ∀ c ∈ r.constraints, c.constraint.IsPure

def Table.IsPure (t : Table σ) : Prop := ∀ r ∈ t.routes, r.IsPure

/-- There is nothing to remember in a state of a single value. -/
theorem Predicate.isPure_unit (p : Predicate Unit) : p.IsPure :=
  fun params request => ⟨(p.call params request ()).1, fun _ => rfl⟩

theorem Table.isPure_unit (t : Table Unit) : t.IsPure :=
  fun _ _ _ _ p _ => p.isPure_unit

namespace BoundConstraint

/-- The constraint passes in every state. -/
def Holds (b : BoundConstraint σ) (tldLength : UInt64) (params : Params) (request : Request) : Prop :=
  ∀ s, (b.check tldLength params request s).1 = true

variable {b : BoundConstraint σ} {tldLength : UInt64} {params : Params} {request : Request}

theorem check_of_isPure (h : b.constraint.IsPure) :
    ∃ x, ∀ s, b.check tldLength params request s = (x, s) := by
  unfold check
  cases hc : b.constraint with
  | predicate p => exact h p hc params request
  | literal _ => exact ⟨_, fun _ => rfl⟩
  | regex _ _ => exact ⟨_, fun _ => rfl⟩
  | set _ => exact ⟨_, fun _ => rfl⟩
  | presence _ => exact ⟨_, fun _ => rfl⟩

/-- A pure constraint says in every state what it says in one. -/
theorem check_eq_iff_holds (h : b.constraint.IsPure) (s : σ) :
    b.check tldLength params request s = (true, s) ↔ b.Holds tldLength params request := by
  obtain ⟨x, hx⟩ := check_of_isPure h
  constructor
  · intro hs s'
    rw [hx] at hs ⊢
    exact (Prod.mk.inj hs).1
  · intro hb
    have hfirst := hb s
    rw [hx] at hfirst ⊢
    exact congrArg (·, s) hfirst

end BoundConstraint

namespace Route

variable {r : Route σ} {tldLength : UInt64} {request : Request} {path : String} {params : Params}

theorem firstFailure_of_isPure (tldLength : UInt64) (params : Params) (request : Request)
    {cs : List (BoundConstraint σ)} (h : ∀ c ∈ cs, c.constraint.IsPure) (s : σ) :
    ∃ failure, firstFailure tldLength params request cs s = (failure, s) ∧
      (failure = none ↔ ∀ c ∈ cs, c.Holds tldLength params request) := by
  induction cs with
  | nil => exact ⟨none, rfl, by simp⟩
  | cons c cs ih =>
      obtain ⟨hc, hcs⟩ := List.forall_mem_cons.1 h
      obtain ⟨failure, hrest, hiff⟩ := ih hcs
      have hchecked : ∃ x, ∀ s, c.check tldLength params request s = (x, s) :=
        BoundConstraint.check_of_isPure hc
      have hholds : c.check tldLength params request s = (true, s) ↔
          c.Holds tldLength params request := BoundConstraint.check_eq_iff_holds hc s
      obtain ⟨x, hx⟩ := hchecked
      rw [hx] at hholds
      rw [firstFailure, hx]
      cases x with
      | true =>
          refine ⟨failure, hrest, ?_⟩
          rw [List.forall_mem_cons, hiff]
          exact ⟨fun hall => ⟨hholds.1 rfl, hall⟩, And.right⟩
      | false =>
          refine ⟨some c.label, rfl, ?_⟩
          rw [List.forall_mem_cons]
          exact ⟨nofun, fun hall => absurd (hholds.2 hall.1) (by simp)⟩

/-! ### What a route does with a request -/

/-- The route accepts the request, with this match. -/
def Accepts (r : Route σ) (tldLength : UInt64) (request : Request) (path : String)
    (m : RouteMatch σ) : Prop :=
  ∃ captured, r.pattern.matchPath path = some captured ∧ r.verbs.accepts request.method = true ∧
    m = ⟨r, r.paramsFor captured.params, captured.remaining⟩ ∧
    ∀ c ∈ r.constraints, c.Holds tldLength m.params request

/-- The pattern matches, and the methods do not. -/
def Refuses (r : Route σ) (request : Request) (path : String) : Prop :=
  (r.pattern.matchPath path).isSome = true ∧ r.verbs.accepts request.method = false

instance (r : Route σ) (request : Request) (path : String) : Decidable (r.Refuses request path) :=
  inferInstanceAs (Decidable (_ ∧ _))

/-- The methods that the route adds to those a request may use instead. -/
def refused (r : Route σ) (request : Request) (path : String) : List Method :=
  if r.Refuses request path then r.verbs.methods else []

theorem mem_refused {m : Method} :
    m ∈ r.refused request path ↔ r.Refuses request path ∧ m ∈ r.verbs.methods := by
  unfold refused
  split <;> simp_all

end Route

def Attempt.match? : Attempt σ → Option (RouteMatch σ)
  | .accepted m => some m
  | _ => none

namespace Route

variable {r : Route σ} {tldLength : UInt64} {request : Request} {path : String}

/-- The match that an attempt in some state gives. -/
def match? (r : Route σ) (tldLength : UInt64) (request : Request) (path : String) (s : σ) :
    Option (RouteMatch σ) := (r.attempt tldLength request path s).1.match?

/-- The four ways in which an attempt may go. -/
inductive Attempted (r : Route σ) (tldLength : UInt64) (request : Request) (path : String) (s : σ) :
    Prop
  | missed (attempt : r.attempt tldLength request path s = (.missed, s))
    (path : r.pattern.matchPath path = none)
  | wrongVerb (attempt : r.attempt tldLength request path s = (.wrongVerb, s))
    (refuses : r.Refuses request path)
  | rejected (label : String) (attempt : r.attempt tldLength request path s = (.rejected label, s))
    (onPath : (r.pattern.matchPath path).isSome = true)
    (verb : r.verbs.accepts request.method = true)
    (fails : ∀ m, ¬ r.Accepts tldLength request path m)
  | accepted (m : RouteMatch σ) (attempt : r.attempt tldLength request path s = (.accepted m, s))
    (accepts : r.Accepts tldLength request path m)

theorem attempted_of_isPure (h : r.IsPure) (tldLength : UInt64) (request : Request) (path : String)
    (s : σ) : r.Attempted tldLength request path s := by
  cases hpath : r.pattern.matchPath path with
  | none => exact .missed (by simp only [attempt, hpath]) hpath
  | some captured =>
      have honPath : (r.pattern.matchPath path).isSome = true := by rw [hpath]; rfl
      cases hverb : r.verbs.accepts request.method with
      | false => exact .wrongVerb (by simp [attempt, hpath, hverb]) ⟨honPath, hverb⟩
      | true =>
          obtain ⟨failure, hfailure, hiff⟩ :=
            firstFailure_of_isPure tldLength (r.paramsFor captured.params) request h s
          cases failure with
          | none =>
              refine .accepted ⟨r, r.paramsFor captured.params, captured.remaining⟩ ?_
                ⟨captured, hpath, hverb, rfl, hiff.1 rfl⟩
              simp [attempt, hpath, hverb, checkConstraints, hfailure]
          | some label =>
              refine .rejected label ?_ honPath hverb ?_
              · simp [attempt, hpath, hverb, checkConstraints, hfailure]
              · rintro m ⟨captured', hcaptured, -, rfl, hholds⟩
                cases hpath.symm.trans hcaptured
                exact absurd (hiff.2 hholds) (by simp)

theorem not_accepts_of_missed (h : r.pattern.matchPath path = none) (m : RouteMatch σ) :
    ¬ r.Accepts tldLength request path m := by
  rintro ⟨captured, hcaptured, -⟩
  rw [h] at hcaptured
  cases hcaptured

theorem not_accepts_of_refuses (h : r.Refuses request path) (m : RouteMatch σ) :
    ¬ r.Accepts tldLength request path m := by
  rintro ⟨_, -, hverb, -⟩
  rw [h.2] at hverb
  cases hverb

theorem Accepts.unique {m m' : RouteMatch σ} (h : r.Accepts tldLength request path m)
    (h' : r.Accepts tldLength request path m') : m = m' := by
  obtain ⟨captured, hpath, -, rfl, -⟩ := h
  obtain ⟨captured', hpath', -, rfl, -⟩ := h'
  cases hpath.symm.trans hpath'
  rfl

theorem match?_eq_some_iff (h : r.IsPure) {s : σ} {m : RouteMatch σ} :
    r.match? tldLength request path s = some m ↔ r.Accepts tldLength request path m := by
  cases attempted_of_isPure h tldLength request path s with
  | missed hattempt hpath =>
      simp [match?, hattempt, Attempt.match?, not_accepts_of_missed hpath]
  | wrongVerb hattempt hrefuses =>
      simp [match?, hattempt, Attempt.match?, not_accepts_of_refuses hrefuses]
  | rejected label hattempt _ _ hfails => simp [match?, hattempt, Attempt.match?, hfails]
  | accepted m' hattempt haccepts =>
      simp only [match?, hattempt, Attempt.match?, Option.some.injEq]
      constructor
      · rintro rfl
        exact haccepts
      · exact haccepts.unique

theorem Accepts.route_eq {m : RouteMatch σ} (h : r.Accepts tldLength request path m) :
    m.route = r := by
  obtain ⟨_, -, -, rfl, -⟩ := h
  rfl

theorem match?_eq_none_iff (h : r.IsPure) {s : σ} :
    r.match? tldLength request path s = none ↔ ∀ m, ¬ r.Accepts tldLength request path m := by
  simp only [← match?_eq_some_iff h (s := s), Option.eq_none_iff_forall_ne_some, ne_eq]

end Route

/-! ### The two loops -/

namespace Table

variable {tldLength : UInt64} {request : Request} {path : String}

/-- The outcome of the routes left, given the methods and the finding of those passed over. -/
def outcomeOf (tldLength : UInt64) (request : Request) (path : String) (rs : List (Route σ))
    (allowed : List Method) (found : Bool) (s : σ) : Recognition σ :=
  match rs.findSome? fun r => r.match? tldLength request path s with
  | some m => .matched m
  | none =>
    if found || rs.any fun r => (r.pattern.matchPath path).isSome then
      .pathOnly (Method.ascending (allowed ++ rs.flatMap fun r => r.refused request path))
    else .noMatch

theorem outcomeOf_cons_of_none {r : Route σ} {s : σ}
    (h : r.match? tldLength request path s = none) (rs : List (Route σ)) (allowed : List Method)
    (found : Bool) :
    outcomeOf tldLength request path (r :: rs) allowed found s =
      outcomeOf tldLength request path rs (allowed ++ r.refused request path)
        (found || (r.pattern.matchPath path).isSome) s := by
  unfold outcomeOf
  rw [List.findSome?_cons_of_isNone (by simp [h]), List.any_cons, List.flatMap_cons,
    Bool.or_assoc, List.append_assoc]

theorem recognizeFrom_eq {rs : List (Route σ)} (h : ∀ r ∈ rs, r.IsPure) (allowed : List Method)
    (found : Bool) (s : σ) :
    recognizeFrom tldLength request path rs allowed found s =
      (outcomeOf tldLength request path rs allowed found s, s) := by
  -- The accumulators hold what the routes passed over have to say; a route that does not accept
  -- adds its share to them, which is what `outcomeOf_cons_of_none` says of the outcome.
  induction rs generalizing allowed found with
  | nil => simp [recognizeFrom, outcomeOf]
  | cons r rs ih =>
      obtain ⟨hr, hrs⟩ := List.forall_mem_cons.1 h
      have ih := ih hrs
      cases Route.attempted_of_isPure hr tldLength request path s with
      | missed hattempt hpath =>
          have hnone : r.match? tldLength request path s = none := by
            simp [Route.match?, hattempt, Attempt.match?]
          have hrefused : r.refused request path = [] := by
            simp [Route.refused, Route.Refuses, hpath]
          simp only [recognizeFrom, hattempt, ih]
          rw [outcomeOf_cons_of_none hnone, hrefused, hpath, List.append_nil, Option.isSome_none,
            Bool.or_false]
      | wrongVerb hattempt hrefuses =>
          have hnone : r.match? tldLength request path s = none := by
            simp [Route.match?, hattempt, Attempt.match?]
          simp only [recognizeFrom, hattempt, ih]
          rw [outcomeOf_cons_of_none hnone, hrefuses.1, Bool.or_true, Route.refused,
            if_pos hrefuses]
      | rejected label hattempt honPath hverb _ =>
          have hnone : r.match? tldLength request path s = none := by
            simp [Route.match?, hattempt, Attempt.match?]
          have hrefused : r.refused request path = [] := by
            simp [Route.refused, Route.Refuses, hverb]
          simp only [recognizeFrom, hattempt, ih]
          rw [outcomeOf_cons_of_none hnone, honPath, hrefused, Bool.or_true, List.append_nil]
      | accepted m hattempt _ =>
          have hsome : r.match? tldLength request path s = some m := by
            simp [Route.match?, hattempt, Attempt.match?]
          simp only [recognizeFrom, hattempt]
          rw [outcomeOf, List.findSome?_cons, hsome]

theorem acceptingFrom_eq {rs : List (Route σ)} (h : ∀ r ∈ rs, r.IsPure) (s : σ) :
    acceptingFrom tldLength request path rs s =
      (rs.filterMap fun r => r.match? tldLength request path s, s) := by
  induction rs with
  | nil => rfl
  | cons r rs ih =>
      obtain ⟨hr, hrs⟩ := List.forall_mem_cons.1 h
      have ih := ih hrs
      cases Route.attempted_of_isPure hr tldLength request path s with
      | missed hattempt _ =>
          simp [acceptingFrom, Route.match?, hattempt, Attempt.match?, ih]
      | wrongVerb hattempt _ =>
          simp [acceptingFrom, Route.match?, hattempt, Attempt.match?, ih]
      | rejected label hattempt _ _ _ =>
          simp [acceptingFrom, Route.match?, hattempt, Attempt.match?, ih]
      | accepted m hattempt _ =>
          simp [acceptingFrom, Route.match?, hattempt, Attempt.match?, ih]

end Table

/-! ### The answer -/

theorem Recognition.match?_eq_some {found : Recognition σ} {m : RouteMatch σ} :
    found.match? = some m ↔ found = .matched m := by
  cases found <;> simp [match?]

/-- The methods that would be answered where the path was found. -/
def Recognition.allowed? : Recognition σ → Option (List Method)
  | .pathOnly allowed => some allowed
  | _ => none

theorem Recognition.allowed?_eq_some {found : Recognition σ} {allowed : List Method} :
    found.allowed? = some allowed ↔ found = .pathOnly allowed := by
  cases found <;> simp [allowed?]

/-- A listed method that is the request's own would have been accepted, and so would `GET` for a
`HEAD` request. -/
theorem Verbs.not_mem_methods_of_not_accepts {v : Verbs} {m : Method} (h : v.accepts m = false) :
    m ∉ v.methods ∧ (m = Method.head → Method.get ∉ v.methods) := by
  cases v with
  | any => simp [methods]
  | only ms =>
      simp only [accepts, Bool.or_eq_false_iff, Bool.and_eq_false_iff] at h
      refine ⟨by simpa [methods] using h.1, fun hhead => ?_⟩
      simpa [methods, hhead] using h.2

namespace Table

/-- How the outcome of a recognition and the list of all accepting routes stand to the routes of
the table. -/
structure Answers (t : Table σ) (request : Request) (path : String) (outcome : Recognition σ)
    (all : List (RouteMatch σ)) : Prop where
  mem_all : ∀ m, m ∈ all ↔ ∃ r ∈ t.routes, r.Accepts t.tldLength request path m
  matched_iff : ∀ m, outcome = .matched m ↔ all.head? = some m
  /-- The route that answers accepts, and no route before it does. -/
  first : ∀ m, outcome = .matched m → ∃ before after, t.routes = before ++ m.route :: after ∧
    m.route.Accepts t.tldLength request path m ∧
    ∀ r ∈ before, ∀ m', ¬ r.Accepts t.tldLength request path m'
  pathOnly_iff : (∃ allowed, outcome = .pathOnly allowed) ↔
    (∀ r ∈ t.routes, ∀ m, ¬ r.Accepts t.tldLength request path m) ∧
      ∃ r ∈ t.routes, (r.pattern.matchPath path).isSome = true
  noMatch_iff : outcome = .noMatch ↔
    (∀ r ∈ t.routes, ∀ m, ¬ r.Accepts t.tldLength request path m) ∧
      ¬ ∃ r ∈ t.routes, (r.pattern.matchPath path).isSome = true
  sorted : ∀ allowed, outcome = .pathOnly allowed → allowed.Pairwise fun a b => a.name < b.name
  mem_allowed : ∀ allowed, outcome = .pathOnly allowed → ∀ m, m ∈ allowed ↔
    ∃ r ∈ t.routes, r.Refuses request path ∧ m ∈ r.verbs.methods
  own_method : ∀ allowed, outcome = .pathOnly allowed → request.method ∉ allowed ∧
    (request.method = Method.head → Method.get ∉ allowed)

variable {t : Table σ} {request : Request} {path : String}

theorem mem_allowed_iff {m : Method} :
    m ∈ Method.ascending ([] ++ t.routes.flatMap fun r => r.refused request path) ↔
      ∃ r ∈ t.routes, r.Refuses request path ∧ m ∈ r.verbs.methods := by
  rw [Method.mem_ascending, List.nil_append, List.mem_flatMap]
  simp only [Route.mem_refused]

theorem own_method_not_allowed :
    request.method ∉ Method.ascending ([] ++ t.routes.flatMap fun r => r.refused request path) ∧
      (request.method = Method.head →
        Method.get ∉ Method.ascending ([] ++ t.routes.flatMap fun r => r.refused request path)) := by
  simp only [mem_allowed_iff]
  constructor
  · rintro ⟨r, -, hrefuses, hmem⟩
    exact (Verbs.not_mem_methods_of_not_accepts hrefuses.2).1 hmem
  · rintro hhead ⟨r, -, hrefuses, hmem⟩
    exact (Verbs.not_mem_methods_of_not_accepts hrefuses.2).2 hhead hmem

/-- All matches, when the predicates are pure. -/
def allMatches (t : Table σ) (request : Request) (path : String) (s : σ) : List (RouteMatch σ) :=
  t.routes.filterMap fun r => r.match? t.tldLength request path s

theorem mem_allMatches (hpure : t.IsPure) (s : σ) (m : RouteMatch σ) :
    m ∈ t.allMatches request path s ↔
      ∃ r ∈ t.routes, r.Accepts t.tldLength request path m := by
  rw [allMatches, List.mem_filterMap]
  constructor
  · rintro ⟨r, hr, hm⟩
    exact ⟨r, hr, (Route.match?_eq_some_iff (hpure r hr)).1 hm⟩
  · rintro ⟨r, hr, hm⟩
    exact ⟨r, hr, (Route.match?_eq_some_iff (hpure r hr)).2 hm⟩

theorem answers_of_findSome?_eq_some (hpure : t.IsPure) {s : σ} {m : RouteMatch σ}
    (hfirst : (t.routes.findSome? fun r => r.match? t.tldLength request path s) = some m) :
    t.Answers request path (.matched m) (t.allMatches request path s) := by
  obtain ⟨before, r, after, hroutes, hr, hbefore⟩ := List.findSome?_eq_some_iff.1 hfirst
  have hin : r ∈ t.routes := by simp [hroutes]
  have haccepts := (Route.match?_eq_some_iff (hpure r hin)).1 hr
  have hhead : (t.allMatches request path s).head? = some m := by
    rw [allMatches, List.head?_filterMap, hfirst]
  have hsome : ¬ ∀ r ∈ t.routes, ∀ m, ¬ r.Accepts t.tldLength request path m :=
    fun hnone => hnone r hin m haccepts
  refine ⟨mem_allMatches hpure s, fun m' => ?_, fun m' hm' => ?_, ?_, ?_, ?_, ?_, ?_⟩
  · rw [hhead, Recognition.matched.injEq, Option.some.injEq]
  · cases hm'
    rw [haccepts.route_eq]
    refine ⟨before, after, hroutes, haccepts, fun r' hr' => ?_⟩
    exact (Route.match?_eq_none_iff (hpure r' (by simp [hroutes, hr']))).1 (hbefore r' hr')
  · simp only [reduceCtorEq, exists_false, hsome, false_and]
  · simp only [reduceCtorEq, hsome, false_and]
  all_goals simp only [reduceCtorEq, false_implies, implies_true]

theorem answers_of_pathOnly (hpure : t.IsPure) {s : σ}
    (hnone : ∀ r ∈ t.routes, ∀ m, ¬ r.Accepts t.tldLength request path m)
    (hhead : (t.allMatches request path s).head? = none)
    (hpath : ∃ r ∈ t.routes, (r.pattern.matchPath path).isSome = true) :
    t.Answers request path
      (.pathOnly (Method.ascending ([] ++ t.routes.flatMap fun r => r.refused request path)))
      (t.allMatches request path s) := by
  refine ⟨mem_allMatches hpure s, fun m' => ?_, ?_, ?_, ?_, ?_, ?_, ?_⟩
  · simp only [hhead, reduceCtorEq]
  · simp only [reduceCtorEq, false_implies, implies_true]
  · exact ⟨fun _ => ⟨hnone, hpath⟩, fun _ => ⟨_, rfl⟩⟩
  · simp only [reduceCtorEq, hpath, not_true, and_false]
  · rintro allowed ⟨⟩
    exact Method.pairwise_ascending _
  · rintro allowed ⟨⟩ m
    exact mem_allowed_iff
  · rintro allowed ⟨⟩
    exact own_method_not_allowed

theorem answers_of_noMatch (hpure : t.IsPure) {s : σ}
    (hnone : ∀ r ∈ t.routes, ∀ m, ¬ r.Accepts t.tldLength request path m)
    (hhead : (t.allMatches request path s).head? = none)
    (hpath : ¬ ∃ r ∈ t.routes, (r.pattern.matchPath path).isSome = true) :
    t.Answers request path .noMatch (t.allMatches request path s) := by
  refine ⟨mem_allMatches hpure s, fun m' => ?_, ?_, ?_, ?_, ?_, ?_, ?_⟩
  · simp only [hhead, reduceCtorEq]
  · simp only [reduceCtorEq, false_implies, implies_true]
  · simp only [reduceCtorEq, exists_false, hpath, and_false]
  · exact ⟨fun _ => ⟨hnone, hpath⟩, fun _ => rfl⟩
  all_goals simp only [reduceCtorEq, false_implies, implies_true]

theorem answers_of_isPure (hpure : t.IsPure) (s : σ) :
    t.Answers request path (outcomeOf t.tldLength request path t.routes [] false s)
      (t.allMatches request path s) := by
  cases hfirst : t.routes.findSome? fun r => r.match? t.tldLength request path s with
  | some m =>
      simp only [outcomeOf, hfirst]
      exact answers_of_findSome?_eq_some hpure hfirst
  | none =>
      have hnone : ∀ r ∈ t.routes, ∀ m, ¬ r.Accepts t.tldLength request path m := fun r hr =>
        (Route.match?_eq_none_iff (hpure r hr)).1 (List.findSome?_eq_none_iff.1 hfirst r hr)
      have hhead : (t.allMatches request path s).head? = none := by
        rw [allMatches, List.head?_filterMap, hfirst]
      simp only [outcomeOf, hfirst, Bool.false_or, List.any_eq_true]
      split
      · next hpath => exact answers_of_pathOnly hpure hnone hhead hpath
      · next hpath => exact answers_of_noMatch hpure hnone hhead hpath

/-- Recognizing a request answers with the first of all accepting routes; when there is none, it
says whether some path matched, and which methods would do there. -/
theorem recognize_answers (hpure : t.IsPure) (hpath : checkedPath request = .ok path) (s : σ) :
    ∃ outcome all, t.recognize request s = (.ok outcome, s) ∧
      t.accepting request s = (.ok all, s) ∧ t.Answers request path outcome all := by
  refine ⟨_, _, ?_, ?_, answers_of_isPure hpure s⟩
  · simp only [recognize, hpath, recognizeFrom_eq hpure]
  · simp only [accepting, hpath, acceptingFrom_eq hpure, allMatches]

/-- Posts are shown on one host only, and changed under methods that two routes list. -/
def posts : Entries Unit :=
  .ofDeclarations [
    { path := "/posts/:id", target := some "posts#show"
      requestConstraints := [.predicate (.request fun r s => (r.host == "www.example.com", s))] },
    { path := "/posts/:id", verbs := .only [Method.put, Method.delete]
      target := some "posts#update" },
    { path := "/posts/:id", verbs := .only [Method.patch, Method.put]
      target := some "posts#update" }]

/-- No route accepts a `HEAD` request on another host: the first is kept from it by its predicate,
and the methods of the two others are what may be used instead. -/
theorem recognize_answers_posts :
    ∃ (t : Table Unit) (all : List (RouteMatch Unit)), draw posts {} = .ok t ∧ t.IsPure ∧
      checkedPath { method := Method.head, path := "/posts//7" } = .ok "/posts/7" ∧
      t.recognize { method := Method.head, path := "/posts//7" } () =
        (.ok (.pathOnly [Method.delete, Method.patch, Method.put]), ()) ∧
      t.accepting { method := Method.head, path := "/posts//7" } () = (.ok all, ()) ∧
      t.Answers { method := Method.head, path := "/posts//7" } "/posts/7"
        (.pathOnly [Method.delete, Method.patch, Method.put]) all := by
  have hmade : ((draw posts {}).toOption.bind fun t =>
      (t.recognize { method := Method.head, path := "/posts//7" } ()).1.toOption.bind fun found =>
        found.allowed?) = some [Method.delete, Method.patch, Method.put] := by
    decide +kernel
  obtain ⟨t, ht, hfound⟩ := Option.bind_eq_some_iff.1 hmade
  obtain ⟨found, hfound, hallowed⟩ := Option.bind_eq_some_iff.1 hfound
  have hpath : checkedPath { method := Method.head, path := "/posts//7" } = .ok "/posts/7" :=
    toOption_eq_some.1 (by decide +kernel)
  obtain ⟨outcome, all, hrecognize, hall, hanswers⟩ :=
    recognize_answers t.isPure_unit hpath ()
  rw [hrecognize] at hfound
  obtain rfl : outcome = found := Except.ok.inj (toOption_eq_some.1 hfound)
  obtain rfl := Recognition.allowed?_eq_some.1 hallowed
  exact ⟨t, all, toOption_eq_some.1 ht, t.isPure_unit, hpath, hrecognize, hall, hanswers⟩

end Table

end RouteEngine
