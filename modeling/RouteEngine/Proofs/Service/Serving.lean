import RouteEngine.Proofs.Request.Header
import RouteEngine.Proofs.Table.Calls
import RouteEngine.Proofs.Table.Recognition
import RouteEngine.Service.Basic

/-!
What serving a request comes to. The candidates are the matches of the routes that accept, in the
order of the table, each route asked in the state that those before it leave
(`accepting_eq_candidates`). They are offered the request in turn: an inductive `Served` says how
a run through candidates may end, with the answer of the first that keeps the request or with the
service's own, and which state and which calls of the handler it leaves behind. The calls are
those that a handler writes into a log beside its state, which disturbs nothing
(`firstAnswer_recorded`), so that `serve_served` holds of whatever the handler does with its state.
-/

namespace RouteEngine

variable {σ τ : Type}

/-! ### The candidates -/

namespace Table

/-- The match of the route at a place, if it accepts in the state that those before it leave. -/
def matchAt (t : Table σ) (request : Request) (path : String) (s : σ) (place : Nat) :
    Option (RouteMatch σ) :=
  t.routes[place]?.bind fun r =>
    r.match? t.tldLength request path (stateAt t.tldLength request path t.routes s place)

/-- The routes that accept, in their order. -/
def candidates (t : Table σ) (request : Request) (path : String) (s : σ) :
    List (RouteMatch σ) :=
  (List.range t.routes.length).filterMap (t.matchAt request path s)

variable {tldLength : UInt64} {request : Request} {path : String}

theorem acceptingFrom_cons (r : Route σ) (rs : List (Route σ)) (s : σ) :
    acceptingFrom tldLength request path (r :: rs) s =
      ((r.match? tldLength request path s).toList ++
          (acceptingFrom tldLength request path rs (r.attempt tldLength request path s).2).1,
        (acceptingFrom tldLength request path rs (r.attempt tldLength request path s).2).2) := by
  rw [acceptingFrom, Route.match?]
  obtain ⟨result, s'⟩ := r.attempt tldLength request path s
  cases result <;> rfl

theorem stateAt_succ (r : Route σ) (rs : List (Route σ)) (s : σ) (place : Nat) :
    stateAt tldLength request path (r :: rs) s (place + 1) =
      stateAt tldLength request path rs (r.attempt tldLength request path s).2 place := rfl

theorem acceptingFrom_eq_filterMap (rs : List (Route σ)) (s : σ) :
    acceptingFrom tldLength request path rs s =
      ((List.range rs.length).filterMap fun place => rs[place]?.bind fun r =>
          r.match? tldLength request path (stateAt tldLength request path rs s place),
        stateAt tldLength request path rs s rs.length) := by
  induction rs generalizing s with
  | nil => rfl
  | cons r rs ih =>
      rw [acceptingFrom_cons, ih, List.length_cons, List.range_succ_eq_map, List.filterMap_cons,
        List.filterMap_map, stateAt_succ]
      simp only [Function.comp_def, List.getElem?_cons_succ, stateAt_succ, List.getElem?_cons_zero,
        Option.bind_some]
      rw [show stateAt tldLength request path (r :: rs) s 0 = s from rfl]
      cases r.match? tldLength request path s <;> rfl

theorem accepting_eq_candidates {t : Table σ} (hpath : checkedPath request = .ok path) (s : σ) :
    t.accepting request s = (.ok (t.candidates request path s),
      stateAt t.tldLength request path t.routes s t.routes.length) := by
  simp only [accepting, hpath, acceptingFrom_eq_filterMap]
  rfl

theorem status_of_checkedPath {e : RoutingError} (h : checkedPath request = .error e) :
    e.status = 400 := by
  simp only [checkedPath] at h
  split at h
  · cases h
  · cases h
    rfl

end Table

namespace Service

variable {live : Service σ} {request : Request} {handler : RouteMatch σ → τ → Response × τ}

/-- The service's own answer asks to be passed over, if there is a way to say so. -/
theorem get?_notFound (hname : (Headers.name? live.settings.cascadeHeader).isSome = true) :
    live.notFound.headers.get? live.settings.cascadeHeader = some cascadePass :=
  Headers.get?_setValid _ hname (by decide +kernel)

/-! ### Answers of candidates -/

/-- The candidate is one for the handler. -/
def isHandled (m : RouteMatch σ) : Bool :=
  match m.route.endpoint with
  | .redirect _ => false
  | _ => true

/-- What a candidate answers, and the state that it leaves the handler in. -/
def answer (request : Request) (handler : RouteMatch σ → τ → Response × τ) (m : RouteMatch σ)
    (t : τ) : Response × τ :=
  match m.route.endpoint with
  | .redirect r => (r.response m.params request, t)
  | _ => handler m t

/-- The state of the handler when all of the candidates have answered. -/
def stateAfter (request : Request) (handler : RouteMatch σ → τ → Response × τ)
    (ms : List (RouteMatch σ)) (t : τ) : τ :=
  ms.foldl (fun t m => (answer request handler m t).2) t

/-- Every one of the candidates, asked in turn, passes the request on. -/
def AllPass (live : Service σ) (request : Request)
    (handler : RouteMatch σ → τ → Response × τ) (ms : List (RouteMatch σ)) (t : τ) : Prop :=
  ∀ before m after, ms = before ++ m :: after →
    live.isPass (answer request handler m (stateAfter request handler before t)).1 = true

/-- How offering a request to candidates may end: the response, the state of the handler and the
candidates that it was called for. Either one of them keeps the request, and those behind it are
not asked, or all of them pass it on. -/
inductive Served (live : Service σ) (request : Request)
    (handler : RouteMatch σ → τ → Response × τ) (ms : List (RouteMatch σ)) (t : τ) :
    Response → τ → List (RouteMatch σ) → Prop
  | kept (passed : List (RouteMatch σ)) (m : RouteMatch σ) (rest : List (RouteMatch σ))
    (split : ms = passed ++ m :: rest) (passes : AllPass live request handler passed t)
    (keeps : live.isPass
      (answer request handler m (stateAfter request handler passed t)).1 = false) :
    Served live request handler ms t
      (answer request handler m (stateAfter request handler passed t)).1
      (stateAfter request handler (passed ++ [m]) t) ((passed ++ [m]).filter isHandled)
  | exhausted (passes : AllPass live request handler ms t) :
    Served live request handler ms t live.notFound (stateAfter request handler ms t)
      (ms.filter isHandled)

/-! ### One candidate after the other -/

theorem allPass_nil (t : τ) : AllPass live request handler [] t := by
  intro before m after h
  cases before <;> cases h

theorem allPass_cons {m : RouteMatch σ} {ms : List (RouteMatch σ)} {t : τ} :
    AllPass live request handler (m :: ms) t ↔
      live.isPass (answer request handler m t).1 = true ∧
        AllPass live request handler ms (answer request handler m t).2 := by
  constructor
  · intro h
    exact ⟨h [] m ms rfl, fun before m' after hms => h (m :: before) m' after (by rw [hms]; rfl)⟩
  · rintro ⟨hm, hms⟩ before m' after h
    cases before with
    | nil =>
        cases h
        exact hm
    | cons b before =>
        cases h
        exact hms before m' after rfl

/-- A candidate that passes is followed by a run through the others. -/
theorem Served.cons {m : RouteMatch σ} {ms : List (RouteMatch σ)} {t t' : τ} {response : Response}
    {calls : List (RouteMatch σ)} (hm : live.isPass (answer request handler m t).1 = true)
    (h : Served live request handler ms (answer request handler m t).2 response t' calls) :
    Served live request handler (m :: ms) t response t' ([m].filter isHandled ++ calls) := by
  cases h with
  | kept passed m' rest hsplit hpasses hkeeps =>
      have hms : m :: ms = (m :: passed) ++ m' :: rest := by rw [hsplit]; rfl
      rw [← List.filter_append]
      exact .kept (m :: passed) m' rest hms (allPass_cons.2 ⟨hm, hpasses⟩) hkeeps
  | exhausted hpasses =>
      rw [← List.filter_append]
      exact .exhausted (allPass_cons.2 ⟨hm, hpasses⟩)

/-! ### Writing calls down -/

/-- The handler with a log of the candidates that it is called for. -/
def recorded (handler : RouteMatch σ → τ → Response × τ) (m : RouteMatch σ)
    (t : τ × List (RouteMatch σ)) : Response × (τ × List (RouteMatch σ)) :=
  ((handler m t.1).1, ((handler m t.1).2, t.2 ++ [m]))

theorem answer_recorded (m : RouteMatch σ) (t : τ) (log : List (RouteMatch σ)) :
    answer request (recorded handler) m (t, log) =
      ((answer request handler m t).1,
        ((answer request handler m t).2, log ++ [m].filter isHandled)) := by
  unfold answer
  cases hendpoint : m.route.endpoint <;> simp [recorded, isHandled, hendpoint]

theorem firstAnswer_cons (m : RouteMatch σ) (ms : List (RouteMatch σ)) (t : τ) :
    live.firstAnswer request handler (m :: ms) t =
      if live.isPass (answer request handler m t).1 then
        live.firstAnswer request handler ms (answer request handler m t).2
      else answer request handler m t := by
  cases hendpoint : m.route.endpoint <;> simp only [firstAnswer, answer, hendpoint]

/-- The first answer that is no pass, with the calls that led to it. -/
theorem firstAnswer_recorded (live : Service σ) (request : Request)
    (handler : RouteMatch σ → τ → Response × τ) (ms : List (RouteMatch σ)) (t : τ)
    (log : List (RouteMatch σ)) :
    ∃ response t' calls, live.firstAnswer request handler ms t = (response, t') ∧
      live.firstAnswer request (recorded handler) ms (t, log) = (response, (t', log ++ calls)) ∧
      Served live request handler ms t response t' calls := by
  induction ms generalizing t log with
  | nil =>
      refine ⟨live.notFound, t, [], rfl, ?_, .exhausted (allPass_nil t)⟩
      rw [firstAnswer, List.append_nil]
  | cons m ms ih =>
      rw [firstAnswer_cons, firstAnswer_cons, answer_recorded]
      cases hm : live.isPass (answer request handler m t).1 with
      | true =>
          obtain ⟨response, t', calls, hfirst, hrecorded, hserved⟩ :=
            ih (answer request handler m t).2 (log ++ [m].filter isHandled)
          rw [List.append_assoc] at hrecorded
          exact ⟨response, t', _, hfirst, hrecorded, hserved.cons hm⟩
      | false =>
          exact ⟨_, _, _, rfl, rfl, .kept [] m ms rfl (allPass_nil t) hm⟩

/-- A response of a candidate is told from the service's own by the field that asks to pass. -/
theorem Served.eq_notFound_iff {ms : List (RouteMatch σ)} {t t' : τ} {response : Response}
    {calls : List (RouteMatch σ)} (h : Served live request handler ms t response t' calls)
    (hname : (Headers.name? live.settings.cascadeHeader).isSome = true) :
    response = live.notFound ↔ AllPass live request handler ms t := by
  cases h with
  | kept passed m rest hsplit _ hkeeps =>
      refine ⟨fun heq => ?_, fun hall => ?_⟩
      · rw [heq, isPass, get?_notFound hname] at hkeeps
        cases hkeeps
      · rw [hall passed m rest hsplit] at hkeeps
        cases hkeeps
  | exhausted hpasses => exact ⟨fun _ => hpasses, fun _ => rfl⟩

/-! ### Serving -/

theorem serve_of_error {e : RoutingError} (hpath : Table.checkedPath request = .error e) (s : σ)
    (t : τ) :
    live.serve request handler s t = (plainResponse e.status e.message, s, t) := by
  rw [serve, Table.accepting, hpath]

theorem serve_of_ok {path : String} (hpath : Table.checkedPath request = .ok path) {s : σ}
    {t t' : τ} {response : Response}
    (hfirst : live.firstAnswer request handler (live.table.candidates request path s) t =
      (response, t')) :
    live.serve request handler s t =
      (response, Table.stateAt live.table.tldLength request path live.table.routes s
        live.table.routes.length, t') := by
  rw [serve, Table.accepting_eq_candidates hpath]
  simp only [hfirst]

/-- Serving offers a request to the accepting routes in their order and returns the first response
that is no pass. The handler is called once for each candidate up to the one that answers, but for
redirects, which answer by themselves; when none keeps the request, and only then, the service
answers with its own 404, which passes. A path that does not decode is answered with 400, and
nobody is asked. -/
theorem serve_served (live : Service σ) (request : Request)
    (handler : RouteMatch σ → τ → Response × τ) (s : σ) (t : τ) :
    ∃ response s' t' calls, live.serve request handler s t = (response, s', t') ∧
      live.serve request (recorded handler) s (t, []) = (response, s', (t', calls)) ∧
      ((Table.checkedPath request).isOk = false →
        response.status = 400 ∧ s' = s ∧ t' = t ∧ calls = []) ∧
      (∀ path, Table.checkedPath request = .ok path →
        Served live request handler (live.table.candidates request path s) t response t' calls ∧
        ((Headers.name? live.settings.cascadeHeader).isSome = true →
          (response = live.notFound ↔
            AllPass live request handler (live.table.candidates request path s) t))) ∧
      live.notFound.status = 404 ∧
      ((Headers.name? live.settings.cascadeHeader).isSome = true →
        live.notFound.headers.get? live.settings.cascadeHeader = some cascadePass) := by
  cases hpath : Table.checkedPath request with
  | error e =>
      refine ⟨_, _, _, [], serve_of_error hpath s t, serve_of_error hpath s (t, []), ?_, ?_, rfl,
        get?_notFound⟩
      · intro _
        exact ⟨Table.status_of_checkedPath hpath, rfl, rfl, rfl⟩
      · intro _ hok
        cases hok
  | ok path =>
      obtain ⟨response, t', calls, hfirst, hrecorded, hserved⟩ :=
        firstAnswer_recorded live request handler (live.table.candidates request path s) t []
      refine ⟨_, _, _, calls, serve_of_ok hpath hfirst, serve_of_ok hpath hrecorded, ?_, ?_, rfl,
        get?_notFound⟩
      · intro hok
        cases hok
      · rintro _ ⟨⟩
        exact ⟨hserved, hserved.eq_notFound_iff⟩

def postsAndArchive : Entries Unit :=
  .ofDeclarations [
    { path := "/posts", target := some "posts#index" },
    { path := "/posts", target := some "archive#index" }]

/-- Passes the first request on and answers the next. -/
def secondTime (_ : RouteMatch Unit) (calls : Nat) : Response × Nat :=
  if calls = 0 then
    ({ plainResponse 200 "" with headers := Headers.empty.set "x-cascade" cascadePass }, 1)
  else (plainResponse 200 "archive", calls + 1)

example : ((draw postsAndArchive {}).toOption.map fun live =>
    let (response, _, calls) := live.serve { path := "/posts" } secondTime () 0
    (response.body, calls)) = some ("archive", 2) := by
  decide +kernel

end Service

end RouteEngine
