import RouteEngine.Table.Recognition

/-!
Which predicates a recognition calls. The predicates of a table are made to write each of their
calls into a log that travels with the state, and the recorded table is run like any other. The
log does not disturb the run (`Mirrors`), so what it holds at the end are the calls of the table
itself: in the order of the routes and of their constraints, and just those that are due
(`recognize_recorded`). A predicate may answer differently each time, so whether a constraint
passes is a question to the state in which it is asked, which `stateAt` gives.
-/

namespace RouteEngine

variable {σ : Type}

/-- A call of a predicate: the place of its route in the table, its own among the constraints of
the route, and the values it was shown. One that looks at the request alone is shown none. -/
structure Call where
  route : Nat
  position : Nat
  shown : Option Params
  deriving DecidableEq, Repr

/-- An earlier route, or an earlier constraint of the same route. -/
def Call.Before (a b : Call) : Prop :=
  a.route < b.route ∨ a.route = b.route ∧ a.position < b.position

/-! ### Writing calls down -/

namespace Predicate

def logging (call : Call) (decide : σ → Bool × σ) (s : σ × List Call) :
    Bool × (σ × List Call) :=
  ((decide s.1).1, ((decide s.1).2, s.2 ++ [call]))

def recorded (route position : Nat) : Predicate σ → Predicate (σ × List Call)
  | .request f => .request fun r => logging ⟨route, position, none⟩ (f r)
  | .params f => .params fun params r => logging ⟨route, position, some params⟩ (f params r)
  | .matcher f => .matcher fun r => logging ⟨route, position, none⟩ (f r)

def shown (params : Params) : Predicate σ → Option Params
  | .params _ => some params
  | _ => none

theorem call_recorded (p : Predicate σ) (route position : Nat) (params : Params)
    (request : Request) (s : σ × List Call) :
    (p.recorded route position).call params request s =
      logging ⟨route, position, p.shown params⟩ (p.call params request) s := by
  cases p <;> rfl

end Predicate

def Constraint.recorded (route position : Nat) : Constraint σ → Constraint (σ × List Call)
  | .literal value => .literal value
  | .regex source whole => .regex source whole
  | .set values => .set values
  | .presence required => .presence required
  | .predicate p => .predicate (p.recorded route position)

namespace BoundConstraint

def recorded (route position : Nat) (b : BoundConstraint σ) : BoundConstraint (σ × List Call) :=
  ⟨b.key, b.target, b.constraint.recorded route position⟩

def recordedFrom (route : Nat) : (position : Nat) → List (BoundConstraint σ) →
    List (BoundConstraint (σ × List Call))
  | _, [] => []
  | position, b :: bs => b.recorded route position :: recordedFrom route (position + 1) bs

/-- The calls that checking the constraint makes: one for a predicate. -/
def calls (b : BoundConstraint σ) (route position : Nat) (params : Params) : List Call :=
  match b.constraint with
  | .predicate p => [⟨route, position, p.shown params⟩]
  | _ => []

theorem check_recorded (b : BoundConstraint σ) (route position : Nat) (tldLength : UInt64)
    (params : Params) (request : Request) (s : σ) (log : List Call) :
    (b.recorded route position).check tldLength params request (s, log) =
      ((b.check tldLength params request s).1,
        ((b.check tldLength params request s).2, log ++ b.calls route position params)) := by
  obtain ⟨key, target, c⟩ := b
  -- Only a predicate takes part in the log; any other constraint is evaluated as before.
  cases c with
  | predicate p => exact p.call_recorded route position params request (s, log)
  | literal _ => exact Prod.ext rfl (Prod.ext rfl (List.append_nil log).symm)
  | regex _ _ => exact Prod.ext rfl (Prod.ext rfl (List.append_nil log).symm)
  | set _ => exact Prod.ext rfl (Prod.ext rfl (List.append_nil log).symm)
  | presence _ => exact Prod.ext rfl (Prod.ext rfl (List.append_nil log).symm)

theorem mem_calls {b : BoundConstraint σ} {route position : Nat} {params : Params} {call : Call} :
    call ∈ b.calls route position params ↔ call.route = route ∧ call.position = position ∧
      ∃ p, b.constraint = .predicate p ∧ call.shown = p.shown params := by
  obtain ⟨i, j, shown⟩ := call
  cases hb : b.constraint <;> simp [calls, hb]

end BoundConstraint

namespace Route

def recorded (place : Nat) (r : Route σ) : Route (σ × List Call) where
  name := r.name
  verbs := r.verbs
  pattern := r.pattern
  constraints := BoundConstraint.recordedFrom place 0 r.constraints
  defaults := r.defaults
  endpoint := r.endpoint
  precedence := r.precedence
  template := r.template

end Route

def RouteMatch.recorded (place : Nat) (m : RouteMatch σ) : RouteMatch (σ × List Call) :=
  ⟨m.route.recorded place, m.params, m.remaining⟩

def Attempt.recorded (place : Nat) : Attempt σ → Attempt (σ × List Call)
  | .accepted m => .accepted (m.recorded place)
  | .wrongVerb => .wrongVerb
  | .rejected label => .rejected label
  | .missed => .missed

namespace Table

def recordedFrom : (place : Nat) → List (Route σ) → List (Route (σ × List Call))
  | _, [] => []
  | place, r :: rs => r.recorded place :: recordedFrom (place + 1) rs

/-- The table with predicates that write their calls into the log. -/
def recorded (t : Table σ) : Table (σ × List Call) := ⟨recordedFrom 0 t.routes, t.tldLength⟩

end Table

/-! ### The constraints of a route -/

namespace Route

section Constraints

variable (tldLength : UInt64) (params : Params) (request : Request)

/-- The calls of asking constraints in turn up to the first that fails. -/
def callsFrom (route : Nat) : (position : Nat) → List (BoundConstraint σ) → σ → List Call
  | _, [], _ => []
  | position, c :: cs, s =>
    c.calls route position params ++
      if (c.check tldLength params request s).1 then
        callsFrom route (position + 1) cs (c.check tldLength params request s).2
      else []

/-- The state that the constraint at a position finds, with all before it asked. -/
def stateAt (cs : List (BoundConstraint σ)) (s : σ) (position : Nat) : σ :=
  (cs.take position).foldl (fun s c => (c.check tldLength params request s).2) s

/-- The constraint at a position passes in the state that it finds. -/
def PassesAt (cs : List (BoundConstraint σ)) (s : σ) (position : Nat) : Prop :=
  ∀ c, cs[position]? = some c →
    (c.check tldLength params request (stateAt tldLength params request cs s position)).1 = true

variable {tldLength params request}

theorem firstFailure_cons (c : BoundConstraint σ) (cs : List (BoundConstraint σ)) (s : σ) :
    firstFailure tldLength params request (c :: cs) s =
      if (c.check tldLength params request s).1 then
        firstFailure tldLength params request cs (c.check tldLength params request s).2
      else (some c.label, (c.check tldLength params request s).2) := by
  rw [firstFailure]
  obtain ⟨b, s'⟩ := c.check tldLength params request s
  cases b <;> rfl

theorem firstFailure_recorded (route : Nat) (cs : List (BoundConstraint σ)) (position : Nat)
    (s : σ) (log : List Call) :
    firstFailure tldLength params request (BoundConstraint.recordedFrom route position cs)
        (s, log) =
      ((firstFailure tldLength params request cs s).1,
        ((firstFailure tldLength params request cs s).2,
          log ++ callsFrom tldLength params request route position cs s)) := by
  induction cs generalizing position s log with
  | nil => simp [BoundConstraint.recordedFrom, firstFailure, callsFrom]
  | cons c cs ih =>
      rw [BoundConstraint.recordedFrom, firstFailure_cons, firstFailure_cons, callsFrom,
        BoundConstraint.check_recorded]
      cases hc : (c.check tldLength params request s).1 with
      | true => simp [ih]
      | false => simp [BoundConstraint.label, BoundConstraint.recorded]

theorem passesAt_zero {c : BoundConstraint σ} {cs : List (BoundConstraint σ)} {s : σ} :
    PassesAt tldLength params request (c :: cs) s 0 ↔
      (c.check tldLength params request s).1 = true := by
  simp [PassesAt, stateAt]

theorem passesAt_succ {c : BoundConstraint σ} {cs : List (BoundConstraint σ)} {s : σ}
    {position : Nat} :
    PassesAt tldLength params request (c :: cs) s (position + 1) ↔
      PassesAt tldLength params request cs (c.check tldLength params request s).2 position := by
  simp [PassesAt, stateAt]

theorem route_of_mem_callsFrom {route position : Nat} {cs : List (BoundConstraint σ)} {s : σ}
    {call : Call} (h : call ∈ callsFrom tldLength params request route position cs s) :
    call.route = route ∧ position ≤ call.position := by
  induction cs generalizing position s with
  | nil => simp [callsFrom] at h
  | cons c cs ih =>
      rw [callsFrom] at h
      rcases List.mem_append.1 h with h | h
      · obtain ⟨hroute, hposition, -⟩ := BoundConstraint.mem_calls.1 h
        exact ⟨hroute, hposition ▸ Nat.le_refl _⟩
      · split at h
        · obtain ⟨hroute, hle⟩ := ih h
          exact ⟨hroute, Nat.le_of_succ_le hle⟩
        · simp at h

theorem pairwise_callsFrom (route position : Nat) (cs : List (BoundConstraint σ)) (s : σ) :
    (callsFrom tldLength params request route position cs s).Pairwise Call.Before := by
  induction cs generalizing position s with
  | nil => exact .nil
  | cons c cs ih =>
      rw [callsFrom, List.pairwise_append]
      refine ⟨?_, ?_, fun a ha b hb => ?_⟩
      · unfold BoundConstraint.calls
        split <;> simp
      · split
        · exact ih _ _
        · exact .nil
      · obtain ⟨haroute, haposition, -⟩ := BoundConstraint.mem_calls.1 ha
        split at hb
        · obtain ⟨hbroute, hbposition⟩ := route_of_mem_callsFrom hb
          exact .inr ⟨haroute.trans hbroute.symm, by omega⟩
        · simp at hb

/-- The predicates among the constraints are called up to the first constraint that fails. -/
theorem mem_callsFrom {route position : Nat} {cs : List (BoundConstraint σ)} {s : σ}
    {call : Call} :
    call ∈ callsFrom tldLength params request route position cs s ↔
      call.route = route ∧ ∃ k c p, call.position = position + k ∧ cs[k]? = some c ∧
        c.constraint = .predicate p ∧ call.shown = p.shown params ∧
        ∀ k' < k, PassesAt tldLength params request cs s k' := by
  -- The first constraint is at distance zero; behind it everything is one place further on and
  -- begins in the state that it left.
  induction cs generalizing position s with
  | nil => simp [callsFrom]
  | cons c cs ih =>
      rw [callsFrom, List.mem_append, BoundConstraint.mem_calls]
      constructor
      · rintro (⟨hroute, hposition, p, hp, hshown⟩ | hlater)
        · exact ⟨hroute, 0, c, p, hposition, rfl, hp, hshown, fun _ hlt => absurd hlt (by omega)⟩
        · split at hlater
          · next hpasses =>
              obtain ⟨hroute, k, c', p, hposition, hk, hp, hshown, hbefore⟩ := ih.1 hlater
              refine ⟨hroute, k + 1, c', p, by omega, hk, hp, hshown, fun k' hk' => ?_⟩
              cases k' with
              | zero => exact passesAt_zero.2 hpasses
              | succ k' => exact passesAt_succ.2 (hbefore k' (by omega))
          · simp at hlater
      · rintro ⟨hroute, k, c', p, hposition, hk, hp, hshown, hbefore⟩
        cases k with
        | zero =>
            cases hk
            exact .inl ⟨hroute, hposition, p, hp, hshown⟩
        | succ k =>
            refine .inr ?_
            rw [if_pos (passesAt_zero.1 (hbefore 0 (by omega)))]
            exact ih.2 ⟨hroute, k, c', p, by omega, hk, hp, hshown,
              fun k' hk' => passesAt_succ.1 (hbefore (k' + 1) (by omega))⟩

end Constraints

/-! ### An attempt -/

section Attempts

variable (r : Route σ) (tldLength : UInt64) (request : Request) (path : String)

/-- The calls of one attempt: none unless the pattern matches and the method is accepted. -/
def calls (place : Nat) (s : σ) : List Call :=
  match r.pattern.matchPath path with
  | none => []
  | some captured =>
    if r.verbs.accepts request.method then
      callsFrom tldLength (r.paramsFor captured.params) request place 0 r.constraints s
    else []

theorem attempt_recorded (place : Nat) (s : σ) (log : List Call) :
    (r.recorded place).attempt tldLength request path (s, log) =
      ((r.attempt tldLength request path s).1.recorded place,
        ((r.attempt tldLength request path s).2,
          log ++ r.calls tldLength request path place s)) := by
  have hpattern : (r.recorded place).pattern = r.pattern := rfl
  have hverbs : (r.recorded place).verbs = r.verbs := rfl
  have hparams : (r.recorded place).paramsFor = r.paramsFor := rfl
  have hconstraints : (r.recorded place).constraints =
      BoundConstraint.recordedFrom place 0 r.constraints := rfl
  unfold attempt calls
  rw [hpattern, hverbs, hparams]
  cases r.pattern.matchPath path with
  | none => simp [Attempt.recorded]
  | some captured =>
      cases r.verbs.accepts request.method with
      | false => simp [Attempt.recorded]
      | true =>
          simp only [checkConstraints, hconstraints, firstFailure_recorded, if_true]
          obtain ⟨failure, s'⟩ := firstFailure tldLength (r.paramsFor captured.params) request
            r.constraints s
          cases failure <;> rfl

variable {r tldLength request path}

theorem mem_calls {place : Nat} {s : σ} {call : Call} :
    call ∈ r.calls tldLength request path place s ↔
      ∃ captured, r.pattern.matchPath path = some captured ∧
        r.verbs.accepts request.method = true ∧ call ∈ callsFrom tldLength
          (r.paramsFor captured.params) request place 0 r.constraints s := by
  unfold calls
  cases r.pattern.matchPath path with
  | none => simp
  | some captured => cases r.verbs.accepts request.method <;> simp

theorem pairwise_calls (place : Nat) (s : σ) :
    (r.calls tldLength request path place s).Pairwise Call.Before := by
  unfold calls
  split
  · exact .nil
  · split
    · exact pairwise_callsFrom _ _ _ _
    · exact .nil

end Attempts

end Route

/-! ### A table -/

namespace Table

section Routes

variable (tldLength : UInt64) (request : Request) (path : String)

/-- The route accepts the request in this state. -/
def AcceptsIn (r : Route σ) (s : σ) : Prop :=
  ∃ m, (r.attempt tldLength request path s).1 = .accepted m

/-- The state that the route at a place finds, with all before it tried. -/
def stateAt (rs : List (Route σ)) (s : σ) (place : Nat) : σ :=
  (rs.take place).foldl (fun s r => (r.attempt tldLength request path s).2) s

/-- The route at a place, if there is one, does not accept in the state that it finds. -/
def DeclinesAt (rs : List (Route σ)) (s : σ) (place : Nat) : Prop :=
  ∀ r, rs[place]? = some r →
    ¬ AcceptsIn tldLength request path r (stateAt tldLength request path rs s place)

/-- The calls of trying routes in turn up to the first that accepts. -/
def callsFrom : (place : Nat) → List (Route σ) → σ → List Call
  | _, [], _ => []
  | place, r :: rs, s =>
    r.calls tldLength request path place s ++
      match r.attempt tldLength request path s with
      | (.accepted _, _) => []
      | (_, s) => callsFrom (place + 1) rs s

/-- The outcome of the recorded table is that of the table, with the matched route recorded. -/
def Mirrors (rs : List (Route σ)) (place : Nat) :
    Recognition (σ × List Call) → Recognition σ → Prop
  | .matched m', .matched m => ∃ k, rs[k]? = some m.route ∧ m' = m.recorded (place + k)
  | .pathOnly allowed', .pathOnly allowed => allowed' = allowed
  | .noMatch, .noMatch => True
  | _, _ => False

variable {tldLength request path}

theorem Mirrors.cons {rs : List (Route σ)} {place : Nat} {found' : Recognition (σ × List Call)}
    {found : Recognition σ} (h : Mirrors rs (place + 1) found' found) (r : Route σ) :
    Mirrors (r :: rs) place found' found := by
  cases found' <;> cases found <;> simp_all only [Mirrors]
  obtain ⟨k, hk, hm⟩ := h
  exact ⟨k + 1, hk, by rw [hm, Nat.add_assoc, Nat.add_comm 1]⟩

/-- The log gets just the calls of the routes tried, and nothing else changes. -/
theorem recognizeFrom_recorded (tldLength : UInt64) (request : Request) (path : String)
    (rs : List (Route σ)) (place : Nat) (allowed : List Method) (found : Bool) (s : σ)
    (log : List Call) :
    ∃ outcome, recognizeFrom tldLength request path (recordedFrom place rs) allowed found
        (s, log) =
          (outcome, ((recognizeFrom tldLength request path rs allowed found s).2,
            log ++ callsFrom tldLength request path place rs s)) ∧
      Mirrors rs place outcome (recognizeFrom tldLength request path rs allowed found s).1 := by
  induction rs generalizing place allowed found s log with
  | nil => cases found <;> simp [recordedFrom, recognizeFrom, callsFrom, Mirrors]
  | cons r rs ih =>
      have hverbs : (r.recorded place).verbs = r.verbs := rfl
      rw [recordedFrom, callsFrom, recognizeFrom, recognizeFrom, Route.attempt_recorded]
      cases hattempt : r.attempt tldLength request path s with
      | mk result s' =>
          cases result with
          | accepted m =>
              obtain ⟨captured, -, -, rfl⟩ := Route.captured_of_attempt hattempt
              refine ⟨.matched (RouteMatch.recorded place _), ?_, 0, rfl, rfl⟩
              simp only [Attempt.recorded, List.append_nil]
          | wrongVerb =>
              obtain ⟨outcome, houtcome, hmirrors⟩ := ih (place + 1) (allowed ++ r.verbs.methods)
                true s' (log ++ r.calls tldLength request path place s)
              refine ⟨outcome, ?_, hmirrors.cons r⟩
              simp only [Attempt.recorded, hverbs, houtcome, List.append_assoc]
          | rejected label =>
              obtain ⟨outcome, houtcome, hmirrors⟩ := ih (place + 1) allowed
                true s' (log ++ r.calls tldLength request path place s)
              refine ⟨outcome, ?_, hmirrors.cons r⟩
              simp only [Attempt.recorded, houtcome, List.append_assoc]
          | missed =>
              obtain ⟨outcome, houtcome, hmirrors⟩ := ih (place + 1) allowed
                found s' (log ++ r.calls tldLength request path place s)
              refine ⟨outcome, ?_, hmirrors.cons r⟩
              simp only [Attempt.recorded, houtcome, List.append_assoc]

theorem callsFrom_cons_of_accepts {r : Route σ} {s : σ}
    (h : AcceptsIn tldLength request path r s) (place : Nat) (rs : List (Route σ)) :
    callsFrom tldLength request path place (r :: rs) s =
      r.calls tldLength request path place s := by
  obtain ⟨m, hm⟩ := h
  rw [callsFrom]
  cases hattempt : r.attempt tldLength request path s with
  | mk result s' =>
      rw [hattempt] at hm
      cases hm
      exact List.append_nil _

theorem callsFrom_cons_of_not_accepts {r : Route σ} {s : σ}
    (h : ¬ AcceptsIn tldLength request path r s) (place : Nat) (rs : List (Route σ)) :
    callsFrom tldLength request path place (r :: rs) s =
      r.calls tldLength request path place s ++
        callsFrom tldLength request path (place + 1) rs
          (r.attempt tldLength request path s).2 := by
  rw [callsFrom]
  cases hattempt : r.attempt tldLength request path s with
  | mk result s' =>
      cases result with
      | accepted m => exact absurd ⟨m, by rw [hattempt]⟩ h
      | wrongVerb => rfl
      | rejected label => rfl
      | missed => rfl

theorem declinesAt_zero {r : Route σ} {rs : List (Route σ)} {s : σ} :
    DeclinesAt tldLength request path (r :: rs) s 0 ↔ ¬ AcceptsIn tldLength request path r s := by
  simp [DeclinesAt, stateAt]

theorem declinesAt_succ {r : Route σ} {rs : List (Route σ)} {s : σ} {place : Nat} :
    DeclinesAt tldLength request path (r :: rs) s (place + 1) ↔
      DeclinesAt tldLength request path rs (r.attempt tldLength request path s).2 place := by
  simp [DeclinesAt, stateAt]

/-- The calls are those of the routes up to the first that accepts. -/
theorem mem_callsFrom {place : Nat} {rs : List (Route σ)} {s : σ} {call : Call} :
    call ∈ callsFrom tldLength request path place rs s ↔
      ∃ k r, rs[k]? = some r ∧
        call ∈ r.calls tldLength request path (place + k)
          (stateAt tldLength request path rs s k) ∧
        ∀ k' < k, DeclinesAt tldLength request path rs s k' := by
  induction rs generalizing place s with
  | nil => simp [callsFrom]
  | cons r rs ih =>
      by_cases haccepts : AcceptsIn tldLength request path r s
      · rw [callsFrom_cons_of_accepts haccepts]
        constructor
        · intro hcall
          exact ⟨0, r, rfl, hcall, fun _ hlt => absurd hlt (by omega)⟩
        · rintro ⟨k, r', hk, hcall, hbefore⟩
          cases k with
          | zero =>
              cases hk
              exact hcall
          | succ k => exact absurd haccepts (declinesAt_zero.1 (hbefore 0 (by omega)))
      · rw [callsFrom_cons_of_not_accepts haccepts, List.mem_append, ih]
        constructor
        · rintro (hcall | ⟨k, r', hk, hcall, hbefore⟩)
          · exact ⟨0, r, rfl, hcall, fun _ hlt => absurd hlt (by omega)⟩
          · refine ⟨k + 1, r', hk, ?_, fun k' hk' => ?_⟩
            · rw [Nat.add_right_comm, Nat.add_assoc] at hcall
              exact hcall
            · cases k' with
              | zero => exact declinesAt_zero.2 haccepts
              | succ k' => exact declinesAt_succ.2 (hbefore k' (by omega))
        · rintro ⟨k, r', hk, hcall, hbefore⟩
          cases k with
          | zero =>
              cases hk
              exact .inl hcall
          | succ k =>
              refine .inr ⟨k, r', hk, ?_, fun k' hk' =>
                declinesAt_succ.1 (hbefore (k' + 1) (by omega))⟩
              rw [Nat.add_right_comm, Nat.add_assoc]
              exact hcall

theorem pairwise_callsFrom (place : Nat) (rs : List (Route σ)) (s : σ) :
    (callsFrom tldLength request path place rs s).Pairwise Call.Before := by
  induction rs generalizing place s with
  | nil => exact .nil
  | cons r rs ih =>
      by_cases haccepts : AcceptsIn tldLength request path r s
      · rw [callsFrom_cons_of_accepts haccepts]
        exact Route.pairwise_calls _ _
      · rw [callsFrom_cons_of_not_accepts haccepts, List.pairwise_append]
        refine ⟨Route.pairwise_calls _ _, ih _ _, fun a ha b hb => .inl ?_⟩
        obtain ⟨_, -, -, ha⟩ := Route.mem_calls.1 ha
        obtain ⟨k, _, -, hb, -⟩ := mem_callsFrom.1 hb
        obtain ⟨_, -, -, hb⟩ := Route.mem_calls.1 hb
        rw [(Route.route_of_mem_callsFrom ha).1, (Route.route_of_mem_callsFrom hb).1]
        omega

end Routes

/-- A call is due: the path of the request decodes, no route before that of the call accepts, the
pattern and the methods of the route take the request, and every constraint before that of the
call passes. A predicate that looks at values is shown the defaults of its own route with what
this route captured on top. -/
def Due (t : Table σ) (request : Request) (s : σ) (call : Call) : Prop :=
  ∃ path r captured c p, checkedPath request = .ok path ∧
    t.routes[call.route]? = some r ∧
    (∀ place < call.route, DeclinesAt t.tldLength request path t.routes s place) ∧
    r.pattern.matchPath path = some captured ∧ r.verbs.accepts request.method = true ∧
    r.constraints[call.position]? = some c ∧ c.constraint = .predicate p ∧
    (∀ position < call.position,
      Route.PassesAt t.tldLength (r.defaults.override captured.params) request r.constraints
        (stateAt t.tldLength request path t.routes s call.route) position) ∧
    call.shown = p.shown (r.defaults.override captured.params)

theorem mem_callsFrom_iff_due {t : Table σ} {request : Request} {path : String} {s : σ}
    (hpath : checkedPath request = .ok path) {call : Call} :
    call ∈ callsFrom t.tldLength request path 0 t.routes s ↔ t.Due request s call := by
  rw [mem_callsFrom]
  constructor
  · rintro ⟨k, r, hk, hcall, hbefore⟩
    obtain ⟨captured, hcaptured, hverbs, hcall⟩ := Route.mem_calls.1 hcall
    obtain ⟨hroute, j, c, p, hposition, hj, hp, hshown, hpasses⟩ := Route.mem_callsFrom.1 hcall
    rw [Nat.zero_add] at hroute hposition
    subst hroute hposition
    exact ⟨path, r, captured, c, p, hpath, hk, hbefore, hcaptured, hverbs, hj, hp, hpasses, hshown⟩
  · rintro ⟨path', r, captured, c, p, hpath', hk, hbefore, hcaptured, hverbs, hj, hp, hpasses,
      hshown⟩
    cases hpath.symm.trans hpath'
    refine ⟨call.route, r, hk, Route.mem_calls.2 ⟨captured, hcaptured, hverbs, ?_⟩, hbefore⟩
    exact Route.mem_callsFrom.2 ⟨(Nat.zero_add _).symm, call.position, c, p,
      (Nat.zero_add _).symm, hj, hp, hshown, hpasses⟩

/-- One recognition calls the predicates that are due and no others, each once, in the order of
the routes and of the constraints within a route; it calls none when the path does not decode. -/
theorem recognize_recorded (t : Table σ) (request : Request) (s : σ) :
    ∃ outcome calls,
      t.recorded.recognize request (s, []) = (outcome, ((t.recognize request s).2, calls)) ∧
      (∀ e, (t.recognize request s).1 = .error e → outcome = .error e) ∧
      (∀ found, (t.recognize request s).1 = .ok found →
        ∃ found', outcome = .ok found' ∧ Mirrors t.routes 0 found' found) ∧
      calls.Pairwise Call.Before ∧ (∀ call, call ∈ calls ↔ t.Due request s call) ∧
      ((checkedPath request).isOk = false → calls = []) := by
  cases hpath : checkedPath request with
  | error e =>
      have hresult : t.recognize request s = (.error e, s) := by simp only [recognize, hpath]
      refine ⟨.error e, [], ?_, fun e' he' => ?_, fun found hfound => ?_, .nil, fun call => ?_,
        fun _ => rfl⟩
      · simp only [recognize, hpath]
      · rw [hresult] at he'
        cases he'
        rfl
      · rw [hresult] at hfound
        cases hfound
      · simp [Due, hpath]
  | ok path =>
      obtain ⟨outcome, houtcome, hmirrors⟩ :=
        recognizeFrom_recorded t.tldLength request path t.routes 0 [] false s []
      have hresult : t.recognize request s =
          (.ok (recognizeFrom t.tldLength request path t.routes [] false s).1,
            (recognizeFrom t.tldLength request path t.routes [] false s).2) := by
        simp only [recognize, hpath]
      refine ⟨.ok outcome, callsFrom t.tldLength request path 0 t.routes s, ?_, fun e he => ?_,
        fun found hfound => ?_, pairwise_callsFrom _ _ _, fun call => mem_callsFrom_iff_due hpath,
        nofun⟩
      · simp only [recognize, hpath, recorded, houtcome, List.nil_append]
      · rw [hresult] at he
        cases he
      · rw [hresult] at hfound
        cases hfound
        exact ⟨outcome, rfl, hmirrors⟩

end Table

end RouteEngine
