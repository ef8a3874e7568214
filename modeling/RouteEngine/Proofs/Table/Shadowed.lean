import RouteEngine.Console.Check
import RouteEngine.Proofs.Pattern.Marks
import RouteEngine.Proofs.Table.Drawn
import RouteEngine.Table.Recognition

/-!
Routes that are reported as shadowed. The check compares the texts of two expressions and asks
whether the methods of the routes overlap. The same text makes both routes match the same paths,
but for captures of one name that disagree; and methods that overlap need not be the same. So a
request may pass the earlier route and reach the one behind it, and it does so only by its method
or by such captures (`unreachable_of_shadowed`, `exists_reachable_shadowed`).
-/

namespace RouteEngine

open Outcome

variable {σ : Type}

/-! ### What the check reports -/

namespace Check

variable {rs earlier : List (Route σ)} {l e : Route σ}

/-- A report is about a route and one before it that shadows it. -/
theorem mem_shadowed (h : .shadowed l e ∈ shadowed earlier rs) :
    ∃ before after, rs = before ++ l :: after ∧ e ∈ earlier ++ before ∧ shadows e l = true := by
  induction rs generalizing earlier with
  | nil => cases h
  | cons r rs ih =>
      rcases List.mem_append.1 h with h | h
      · split at h
        · next e' hfound =>
            cases List.mem_singleton.1 h
            have hshadows := List.find?_some hfound
            refine ⟨[], rs, rfl, ?_, hshadows⟩
            rw [List.append_nil]
            exact List.mem_of_find?_eq_some hfound
        · cases h
      · obtain ⟨before, after, rfl, hmem, hshadows⟩ := ih h
        refine ⟨r :: before, after, rfl, ?_, hshadows⟩
        rwa [List.append_cons]

theorem mem_run {entries : Entries σ} {settings : Settings} {t : Table σ}
    (ht : Table.draw entries settings = .ok t)
    (h : .shadowed l e ∈ run (.ok entries) settings) :
    ∃ before after, t.routes = before ++ l :: after ∧ e ∈ before ∧ shadows e l = true := by
  simp only [run, ht] at h
  rcases List.mem_append.1 h with h | h
  · split at h
    · cases List.mem_singleton.1 h
    · cases h
  · simpa using mem_shadowed h

end Check

/-! ### Which route answers -/

namespace Route

variable {r : Route σ} {tldLength : UInt64} {request : Request} {path : String} {s s' : σ}
  {m : RouteMatch σ}

theorem accepts_of_attempt (h : r.attempt tldLength request path s = (.accepted m, s')) :
    m.route = r ∧ r.verbs.accepts request.method = true ∧
      (r.pattern.matchPath path).isSome = true := by
  obtain ⟨captured, hpath, hverbs, rfl⟩ := captured_of_attempt h
  exact ⟨rfl, hverbs, by rw [hpath]; rfl⟩

/-- A route without constraints takes every request with its path and one of its methods. -/
theorem accepted_of_constraints_nil (hr : r.constraints = []) {captured : Pattern.Captured}
    (hpath : r.pattern.matchPath path = some captured)
    (hverbs : r.verbs.accepts request.method = true) (tldLength : UInt64) (s : σ) :
    ∃ m, r.attempt tldLength request path s = (.accepted m, s) := by
  refine ⟨⟨r, r.paramsFor captured.params, captured.remaining⟩, ?_⟩
  unfold attempt
  simp only [hpath, hverbs, if_true, checkConstraints, hr, firstFailure]

end Route

namespace Table

variable {t : Table σ} {tldLength : UInt64} {request : Request} {path : String} {s s' : σ}
  {m : RouteMatch σ}

/-- The route that answers accepts the request, and each route before it was asked in vain. -/
theorem split_of_recognizeFrom {rs : List (Route σ)} {allowed : List Method} {found : Bool}
    (h : recognizeFrom tldLength request path rs allowed found s = (.matched m, s')) :
    ∃ before after, rs = before ++ m.route :: after ∧
      m.route.verbs.accepts request.method = true ∧
      (m.route.pattern.matchPath path).isSome = true ∧
      ∀ r ∈ before, ∃ s₀, ∀ m', (r.attempt tldLength request path s₀).1 ≠ .accepted m' := by
  induction rs generalizing allowed found s with
  | nil =>
      rw [recognizeFrom] at h
      split at h <;> cases h
  | cons r rs ih =>
      -- A route that does not accept goes in front of those that the rest of the run passes over.
      have hpass : ∀ {allowed found s₁},
          recognizeFrom tldLength request path rs allowed found s₁ = (.matched m, s') →
          (∀ m', (r.attempt tldLength request path s).1 ≠ .accepted m') →
          ∃ before after, r :: rs = before ++ m.route :: after ∧
            m.route.verbs.accepts request.method = true ∧
            (m.route.pattern.matchPath path).isSome = true ∧
            ∀ r ∈ before, ∃ s₀, ∀ m', (r.attempt tldLength request path s₀).1 ≠ .accepted m' := by
        intro allowed found s₁ hrest hr
        obtain ⟨before, after, rfl, hverbs, hpath, hbefore⟩ := ih hrest
        exact ⟨r :: before, after, rfl, hverbs, hpath,
          List.forall_mem_cons.2 ⟨⟨s, hr⟩, hbefore⟩⟩
      rw [recognizeFrom] at h
      split at h
      · next m' s₁ hattempt =>
          cases h
          obtain ⟨rfl, hverbs, hpath⟩ := Route.accepts_of_attempt hattempt
          exact ⟨[], rs, rfl, hverbs, hpath, by simp⟩
      · next hattempt => exact hpass h fun m' => by simp [hattempt]
      · next hattempt => exact hpass h fun m' => by simp [hattempt]
      · next hattempt => exact hpass h fun m' => by simp [hattempt]

theorem recognizeFrom_of_recognize (h : t.recognize request s = (.ok (.matched m), s')) :
    ∃ path, checkedPath request = .ok path ∧
      recognizeFrom t.tldLength request path t.routes [] false s = (.matched m, s') := by
  unfold recognize at h
  split at h
  · cases h
  · next path hpath =>
      obtain ⟨hmatched, hstate⟩ := Prod.mk.inj h
      exact ⟨path, hpath, Prod.ext (Except.ok.inj hmatched) hstate⟩

variable {earlier later : Route σ}

/-- A route that shadows another one but does not accept a request of the path of the other has not
its method, or its captures of one name disagree that the other gives two names. -/
theorem refuses_or_disagrees {source source' : String} {requirements requirements' : Dict String}
    {anchored anchored' : Bool}
    (hp : Pattern.compile source requirements anchored = .ok earlier.pattern)
    (hq : Pattern.compile source' requirements' anchored' = .ok later.pattern)
    (hshadows : Check.shadows earlier later = true)
    (hlater : (later.pattern.matchPath path).isSome = true)
    (hearlier : ∀ m, (earlier.attempt tldLength request path s).1 ≠ .accepted m) :
    earlier.verbs.accepts request.method = false ∨ earlier.pattern.Disagrees later.pattern path := by
  simp only [Check.shadows, Bool.and_eq_true, List.isEmpty_iff, beq_iff_eq,
    decide_eq_true_iff] at hshadows
  obtain ⟨⟨⟨hconstraints, hanchored⟩, htext⟩, -⟩ := hshadows
  cases hverbs : earlier.verbs.accepts request.method with
  | false => exact .inl rfl
  | true =>
      right
      obtain ⟨hregex, hgroups⟩ := Pattern.slots_of_regexText hp hq hanchored htext
      obtain ⟨captured, hcaptured⟩ := Option.isSome_iff_exists.1 hlater
      apply Pattern.disagrees_of_matchPath hregex hgroups hanchored hcaptured
      cases hpath : earlier.pattern.matchPath path with
      | none => rfl
      | some captured' =>
          obtain ⟨m, hm⟩ :=
            Route.accepted_of_constraints_nil hconstraints hpath hverbs tldLength s
          exact absurd (congrArg Prod.fst hm) (hearlier m)

-- Methods overlap with those of a route that does not answer all of them.
example : (Verbs.only [Method.get]).overlaps .any = true ∧
    (Verbs.only [Method.get]).accepts Method.post = false := by
  decide +kernel

/-- A route that answers though it stands behind one that shadows it has the method, and the other
one has not, or its captures disagree. -/
theorem refuses_of_recognize {entries : Entries σ} {settings : Settings}
    (ht : draw entries settings = .ok t) {before after : List (Route σ)}
    (hroutes : t.routes = before ++ m.route :: after) (hmem : earlier ∈ before)
    (hshadows : Check.shadows earlier m.route = true)
    (hmatched : t.recognize request s = (.ok (.matched m), s')) :
    m.route.verbs.accepts request.method = true ∧
      (earlier.verbs.accepts request.method = false ∨
        ∃ path, checkedPath request = .ok path ∧
          earlier.pattern.Disagrees m.route.pattern path) := by
  obtain ⟨path, hpath, hrun⟩ := recognizeFrom_of_recognize hmatched
  obtain ⟨before', after', hsplit, hverbs, honPath, hpassed⟩ := split_of_recognizeFrom hrun
  -- The route knows its place, so the routes passed over are those before it.
  have horder := inOrder_of_draw ht
  have hlength : before.length = before'.length :=
    (horder.length_eq hroutes).trans (horder.length_eq hsplit).symm
  obtain ⟨rfl, -⟩ := List.append_inj (hroutes.symm.trans hsplit) hlength
  obtain ⟨s₀, hearlier⟩ := hpassed earlier hmem
  have hcompiled := exists_compile_of_draw ht
  obtain ⟨_, _, _, hp⟩ := hcompiled earlier (by simp [hroutes, hmem])
  obtain ⟨_, _, _, hq⟩ := hcompiled m.route (by simp [hroutes])
  refine ⟨hverbs, (refuses_or_disagrees hp hq hshadows honPath hearlier).imp_right ?_⟩
  exact fun hdisagrees => ⟨path, hpath, hdisagrees⟩

/-- A reported route stands behind the one that shadows it. A request that reaches it all the same
has a method that the earlier route does not answer, or captures disagree to which only the earlier
route gives one name. So the route is out of reach when the earlier one answers all its methods and
gives no two captures one name that have two names in it. -/
theorem unreachable_of_shadowed {entries : Entries σ} {settings : Settings}
    (ht : draw entries settings = .ok t)
    (hreport : .shadowed later earlier ∈ Check.run (.ok entries) settings) :
    (∃ before after, t.routes = before ++ later :: after ∧ earlier ∈ before) ∧
    (∀ request s m s', t.recognize request s = (.ok (.matched m), s') → m.route = later →
      earlier.verbs.accepts request.method = false ∨
        ∃ path, checkedPath request = .ok path ∧ earlier.pattern.Disagrees later.pattern path) ∧
    ((∀ method, later.verbs.accepts method = true → earlier.verbs.accepts method = true) →
      earlier.pattern.NamesAlike later.pattern →
      ∀ request s m s', t.recognize request s = (.ok (.matched m), s') → m.route ≠ later) := by
  obtain ⟨before, after, hroutes, hmem, hshadows⟩ := Check.mem_run ht hreport
  refine ⟨⟨before, after, hroutes, hmem⟩, ?_, ?_⟩
  · rintro request s m s' hmatched rfl
    exact (refuses_of_recognize ht hroutes hmem hshadows hmatched).2
  · rintro hmethods hnames request s m s' hmatched rfl
    obtain ⟨hlater, hmethod | ⟨path, -, hdisagrees⟩⟩ :=
      refuses_of_recognize ht hroutes hmem hshadows hmatched
    · rw [hmethods _ hlater] at hmethod
      cases hmethod
    · exact Pattern.not_disagrees_of_namesAlike hnames path hdisagrees

/-- The table has two routes, the second is reported, and `p` holds of the two. -/
def shadowedPair (p : Route Unit → Route Unit → Bool) (t : Table Unit) : Bool :=
  match t.routes with
  | [a, b] => Check.shadows a b && p a b
  | _ => false

theorem shadowedPair_eq_true {p : Route Unit → Route Unit → Bool} {entries : Entries Unit}
    {settings : Settings} {t : Table Unit} (ht : draw entries settings = .ok t)
    (h : shadowedPair p t = true) :
    ∃ a b, t.routes = [a, b] ∧ .shadowed b a ∈ Check.run (.ok entries) settings ∧
      p a b = true := by
  unfold shadowedPair at h
  split at h
  · next a b hroutes =>
      obtain ⟨hshadows, hp⟩ := Bool.and_eq_true_iff.1 h
      refine ⟨a, b, hroutes, ?_, hp⟩
      simp [Check.run, ht, Check.table, Check.shadowed, hroutes, hshadows]
  · cases h

/-- Two declarations, one after the other. -/
def pair (a b : Declaration Unit) : Entries Unit := .ofDeclarations [a, b]

/-- Nothing is put at the end of a path. -/
def unformatted : Settings := { appendFormat := false }

def postById : Declaration Unit := { path := "/:id", handle := some "post" }

def postByTitle : Declaration Unit := { path := "/:title", handle := some "titled" }

theorem unreachable_of_shadowed_post :
    ∃ t a b, draw (pair postById postByTitle) unformatted = .ok t ∧ t.routes = [a, b] ∧
      .shadowed b a ∈ Check.run (.ok (pair postById postByTitle)) unformatted ∧
      ∀ request s m s', t.recognize request s = (.ok (.matched m), s') → m.route ≠ b := by
  have hdrawn : (draw (pair postById postByTitle) unformatted).toOption.any (shadowedPair fun a b =>
      decide (a.verbs = b.verbs ∧ a.pattern.NamesAlike b.pattern)) = true := by
    decide +kernel
  obtain ⟨t, ht, hdrawn⟩ := exists_ok_of_any hdrawn
  obtain ⟨a, b, hroutes, hreport, hsame⟩ := shadowedPair_eq_true ht hdrawn
  obtain ⟨hverbs, hnames⟩ := of_decide_eq_true hsame
  exact ⟨t, a, b, ht, hroutes, hreport,
    (unreachable_of_shadowed ht hreport).2.2 (fun _ h => hverbs ▸ h) hnames⟩

/-- The request is answered by the second route of the table. -/
def answersSecond (request : Request) (t : Table Unit) : Bool :=
  match t.recognize request () with
  | (.ok (.matched m), ()) => m.route.precedence = 1
  | _ => false

/-- Of two routes the second is reported, and a request reaches it. -/
theorem reaches_second {entries : Entries Unit} {request : Request}
    (h : (draw entries unformatted).toOption.any (fun t =>
      shadowedPair (fun _ _ => true) t && answersSecond request t) = true) :
    ∃ t a b m, draw entries unformatted = .ok t ∧ .shadowed b a ∈ Check.run (.ok entries) unformatted ∧
      t.recognize request () = (.ok (.matched m), ()) ∧ m.route = b := by
  obtain ⟨t, ht, hdrawn⟩ := exists_ok_of_any h
  obtain ⟨hpair, hsecond⟩ := Bool.and_eq_true_iff.1 hdrawn
  obtain ⟨a, b, hroutes, hreport, -⟩ := shadowedPair_eq_true ht hpair
  unfold answersSecond at hsecond
  split at hsecond
  · next m hmatched =>
      refine ⟨t, a, b, m, ht, hreport, hmatched, ?_⟩
      obtain ⟨_, -, hrun⟩ := recognizeFrom_of_recognize hmatched
      obtain ⟨before, after, hsplit, -⟩ := split_of_recognizeFrom hrun
      have hlength := (inOrder_of_draw ht).length_eq hsplit
      rw [of_decide_eq_true hsecond, List.length_eq_one_iff] at hlength
      obtain ⟨_, rfl⟩ := hlength
      rw [hroutes] at hsplit
      exact (List.cons.inj (List.cons.inj hsplit).2).1.symm
  · cases hsecond

def about : Declaration Unit := { path := "/about", handle := some "about" }

def formerAbout : Declaration Unit :=
  { path := "/about", verbs := .any, handle := some "former" }

def twice : Declaration Unit := { path := "/:id/:id", handle := some "twice" }

def both : Declaration Unit := { path := "/:from/:to", handle := some "both" }

/-- Reported routes are reached by another method, and by captures of one name that disagree. -/
theorem exists_reachable_shadowed :
    (∃ t a b m, draw (pair about formerAbout) unformatted = .ok t ∧
      .shadowed b a ∈ Check.run (.ok (pair about formerAbout)) unformatted ∧
      t.recognize { method := Method.post, path := "/about" } () = (.ok (.matched m), ()) ∧
      m.route = b) ∧
    ∃ t a b m, draw (pair twice both) unformatted = .ok t ∧
      .shadowed b a ∈ Check.run (.ok (pair twice both)) unformatted ∧
      t.recognize { path := "/1/2" } () = (.ok (.matched m), ()) ∧ m.route = b :=
  ⟨reaches_second (by decide +kernel), reaches_second (by decide +kernel)⟩

end Table

end RouteEngine
