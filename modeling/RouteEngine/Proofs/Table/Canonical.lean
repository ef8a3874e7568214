import RouteEngine.Proofs.Escape.FinalSlash
import RouteEngine.Proofs.Escape.Undecodable
import RouteEngine.Proofs.Table.Recognition

/-!
Requests are looked up by the canonical form of their path. Whether there is a text to look up is
decided by the path as it came (`recognize_undecodable`), because the canonical form changes
nothing about that. And requests whose paths have one canonical form are answered alike, provided
that no predicate looks at the path itself; which paths these are, and what their form looks
like, is said by `normalizePath_canonical`.
-/

namespace RouteEngine

open Escape Outcome

variable {σ : Type}

/-! ### Predicates that do not look at the path -/

def Predicate.IgnoresPath (p : Predicate σ) : Prop :=
  ∀ params request path s, p.call params { request with path } s = p.call params request s

def Constraint.IgnoresPath (c : Constraint σ) : Prop := ∀ p, c = .predicate p → p.IgnoresPath

def Table.IgnoresPath (t : Table σ) : Prop :=
  ∀ r ∈ t.routes, ∀ c ∈ r.constraints, c.constraint.IgnoresPath

/-- Only predicates see the request as a whole. -/
theorem Table.ignoresPath_of_all {t : Table σ}
    (h : (t.routes.all fun r => r.constraints.all fun c => !c.constraint.isPredicate) = true) :
    t.IgnoresPath := by
  intro r hr c hc p hp
  have hall := List.all_eq_true.1 (List.all_eq_true.1 h r hr) c hc
  rw [hp] at hall
  exact absurd hall Bool.false_ne_true

variable {tldLength : UInt64} {params : Params} {request : Request}

theorem BoundConstraint.check_path {b : BoundConstraint σ} (h : b.constraint.IgnoresPath)
    (path : String) (s : σ) :
    b.check tldLength params { request with path } s = b.check tldLength params request s := by
  have hvalue : valueOf tldLength params { request with path } b.target =
      valueOf tldLength params request b.target := by
    cases b.target with
    | segment name => rfl
    | request a => cases a <;> rfl
    | lookup key => rfl
    | route => rfl
  rw [check, check, hvalue]
  cases hc : b.constraint with
  | predicate p => exact h p hc params request path s
  | literal _ => rfl
  | regex _ _ => rfl
  | set _ => rfl
  | presence _ => rfl

namespace Route

theorem firstFailure_path {cs : List (BoundConstraint σ)}
    (h : ∀ c ∈ cs, c.constraint.IgnoresPath) (path : String) (s : σ) :
    firstFailure tldLength params { request with path } cs s =
      firstFailure tldLength params request cs s := by
  induction cs generalizing s with
  | nil => rfl
  | cons c cs ih =>
      obtain ⟨hc, hcs⟩ := List.forall_mem_cons.1 h
      rw [firstFailure, firstFailure, BoundConstraint.check_path hc]
      split
      · exact ih hcs _
      · rfl

theorem attempt_path {r : Route σ} (h : ∀ c ∈ r.constraints, c.constraint.IgnoresPath)
    (path canonical : String) (s : σ) :
    r.attempt tldLength { request with path } canonical s =
      r.attempt tldLength request canonical s := by
  simp only [attempt, checkConstraints, firstFailure_path h]

end Route

namespace Table

theorem recognizeFrom_path {routes : List (Route σ)}
    (h : ∀ r ∈ routes, ∀ c ∈ r.constraints, c.constraint.IgnoresPath) (path canonical : String)
    (allowed : List Method) (found : Bool) (s : σ) :
    recognizeFrom tldLength { request with path } canonical routes allowed found s =
      recognizeFrom tldLength request canonical routes allowed found s := by
  induction routes generalizing allowed found s with
  | nil => rfl
  | cons r routes ih =>
      obtain ⟨hr, hroutes⟩ := List.forall_mem_cons.1 h
      rw [recognizeFrom, recognizeFrom, Route.attempt_path hr]
      split
      · rfl
      all_goals exact ih hroutes _ _ _

theorem acceptingFrom_path {routes : List (Route σ)}
    (h : ∀ r ∈ routes, ∀ c ∈ r.constraints, c.constraint.IgnoresPath) (path canonical : String)
    (s : σ) :
    acceptingFrom tldLength { request with path } canonical routes s =
      acceptingFrom tldLength request canonical routes s := by
  induction routes generalizing s with
  | nil => rfl
  | cons r routes ih =>
      obtain ⟨hr, hroutes⟩ := List.forall_mem_cons.1 h
      rw [acceptingFrom, acceptingFrom, Route.attempt_path hr]
      split
      · rw [ih hroutes]
      · exact ih hroutes _

/-! ### Paths that stand for no text -/

theorem checkedPath_of_decodes (h : Decodes request.path.toList) :
    checkedPath request = .ok (normalizePath request.path) := by
  obtain ⟨text, htext⟩ := decodes_iff.1 ((decodes_normalizeChars _).2 h)
  have hunescape : unescape (normalizePath request.path) = some (String.ofList text) := by
    rw [unescape, normalizePath, String.toList_ofList, htext]
    rfl
  simp only [checkedPath, hunescape]

theorem checkedPath_of_not_decodes (h : ¬ Decodes request.path.toList) :
    checkedPath request = .error (.badRequest (.undecodablePath request.path)) := by
  have hunescape : unescape (normalizePath request.path) = none := by
    rw [unescape, normalizePath, String.toList_ofList, Option.map_eq_none_iff,
      Option.eq_none_iff_forall_ne_some]
    intro text htext
    exact h ((decodes_normalizeChars _).1 (decodes_iff.2 ⟨text, htext⟩))
  simp only [checkedPath, hunescape]

/-- A request is refused as a bad one exactly when the bytes that its path stands for, as it came,
are those of no text; whatever the routes are, they are not asked then. Any other request is
answered. -/
theorem recognize_undecodable (t : Table σ) (request : Request) (s : σ) :
    (t.recognize request s = (.error (.badRequest (.undecodablePath request.path)), s) ↔
      ¬ Decodes request.path.toList) ∧
    ((∃ found s', t.recognize request s = (.ok found, s')) ↔ Decodes request.path.toList) ∧
    (t.accepting request s = (.error (.badRequest (.undecodablePath request.path)), s) ↔
      ¬ Decodes request.path.toList) ∧
    ((∃ all s', t.accepting request s = (.ok all, s')) ↔ Decodes request.path.toList) := by
  by_cases h : Decodes request.path.toList
  · have hpath := checkedPath_of_decodes h
    simp [recognize, accepting, hpath, h]
  · have hpath := checkedPath_of_not_decodes h
    simp [recognize, accepting, hpath, h]

/-! ### Paths with one canonical form -/

/-- The requests are answered alike, and leave the same state, although an error names the path of
each. -/
def AnswersAlike (t : Table σ) (a b : Request) : Prop :=
  ∀ s, (t.recognize a s).1.toOption = (t.recognize b s).1.toOption ∧
    (t.recognize a s).2 = (t.recognize b s).2 ∧
    (t.accepting a s).1.toOption = (t.accepting b s).1.toOption ∧
    (t.accepting a s).2 = (t.accepting b s).2

theorem answersAlike_of_normalizePath {t : Table σ} (ht : t.IgnoresPath) {p p' : String}
    (h : normalizePath p = normalizePath p') (request : Request) :
    t.AnswersAlike { request with path := p } { request with path := p' } := by
  intro s
  have hchars : normalizeChars p.toList = normalizeChars p'.toList := String.ofList_injective h
  have hdecodes : Decodes p.toList ↔ Decodes p'.toList := by
    rw [← decodes_normalizeChars p.toList, hchars, decodes_normalizeChars]
  by_cases hp : Decodes p.toList
  · have hpath : checkedPath { request with path := p } = .ok (normalizePath p) :=
      checkedPath_of_decodes hp
    have hpath' : checkedPath { request with path := p' } = .ok (normalizePath p) :=
      (checkedPath_of_decodes (hdecodes.1 hp)).trans (congrArg _ h.symm)
    simp [recognize, accepting, hpath, hpath', recognizeFrom_path ht, acceptingFrom_path ht]
  · have hpath : checkedPath { request with path := p } = .error _ :=
      checkedPath_of_not_decodes hp
    have hpath' : checkedPath { request with path := p' } = .error _ :=
      checkedPath_of_not_decodes (mt hdecodes.2 hp)
    simp [recognize, accepting, hpath, hpath', Except.toOption]

/-- The canonical form of a path has one slash in front, no slash twice in a row and every escape
in upper case. It ends in no slash, and stays as it is when it is taken again, exactly when the
path had one at its end at most; and then requests are answered alike whose paths differ in
slashes only that it drops. -/
theorem normalizePath_canonical (p : String) :
    (∃ rest, (normalizePath p).toList = '/' :: rest) ∧
    ¬ ['/', '/'] <:+: (normalizePath p).toList ∧
    Raised (normalizePath p).toList ∧
    (EndsPlain (normalizePath p).toList ↔ OneFinalSlash p.toList) ∧
    (normalizePath (normalizePath p) = normalizePath p ↔ OneFinalSlash p.toList) ∧
    ∀ p' : String, OneFinalSlash p.toList → OneFinalSlash p'.toList →
      Relation.EqvGen AddsSlash p.toList p'.toList →
      ∀ (t : Table σ) (request : Request), t.IgnoresPath →
        t.AnswersAlike { request with path := p } { request with path := p' } := by
  have hchars : (normalizePath p).toList = normalizeChars p.toList := String.toList_ofList
  have hagain : normalizePath (normalizePath p) = normalizePath p ↔
      normalizeChars (normalizeChars p.toList) = normalizeChars p.toList := by
    rw [normalizePath, hchars, normalizePath, String.ofList_inj]
  rw [hchars, hagain]
  refine ⟨exists_normalizeChars_eq_cons _, squeezed_iff.1 (squeezed_normalizeChars _),
    raised_normalizeChars _, endsPlain_normalizeChars, normalizeChars_eq_self_iff, ?_⟩
  intro p' hp hp' hslashes t request ht
  have hsame : normalizePath p = normalizePath p' :=
    congrArg String.ofList (normalizeChars_eq_of_eqvGen hp hp' hslashes)
  exact answersAlike_of_normalizePath ht hsame request

def singlePosts : Entries Unit :=
  .ofDeclarations [{ path := "/posts/:id", target := some "posts#show" }]

theorem normalizePath_canonical_posts :
    ∃ t, Table.draw singlePosts {} = .ok t ∧ t.IgnoresPath ∧
      OneFinalSlash "//posts/7%2f".toList ∧ OneFinalSlash "posts//7///".toList ∧
      Relation.EqvGen AddsSlash "//posts/7%2f".toList "posts//7///".toList ∧
      normalizePath "//posts/7%2f" = "/posts/7" ∧
      t.AnswersAlike { path := "//posts/7%2f" } { path := "posts//7///" } := by
  have hdrawn : (Table.draw singlePosts {}).toOption.any (fun t => t.routes.all fun r =>
      r.constraints.all fun c => !c.constraint.isPredicate) = true := by
    decide +kernel
  obtain ⟨t, ht, hall⟩ := exists_ok_of_any hdrawn
  have hone : OneFinalSlash "//posts/7%2f".toList :=
    ⟨"//posts/7".toList, "%2f".toList, rfl, .inr (.inr rfl), .inr (by decide)⟩
  have hone' : OneFinalSlash "posts//7///".toList :=
    ⟨"posts//7".toList, "///".toList, rfl, .inl (by simp), .inr (by decide)⟩
  have hleft : Relation.EqvGen AddsSlash "posts/7".toList "//posts/7%2f".toList :=
    (Relation.EqvGen.rel _ _ (.leading _)).trans _ _ _ <|
      (Relation.EqvGen.rel _ _ (.leading _)).trans _ _ _ (.rel _ _ (.escaped _ (.inr rfl)))
  have hright : Relation.EqvGen AddsSlash "posts/7".toList "posts//7///".toList :=
    (Relation.EqvGen.rel _ _ (.doubled "posts".toList _)).trans _ _ _ <|
      (Relation.EqvGen.rel _ _ (.final _)).trans _ _ _ <|
        (Relation.EqvGen.rel _ _ (.final _)).trans _ _ _ (.rel _ _ (.final _))
  have hslashes := hleft.symm.trans _ _ _ hright
  exact ⟨t, ht, ignoresPath_of_all hall, hone, hone', hslashes, by decide +kernel,
    (normalizePath_canonical "//posts/7%2f").2.2.2.2.2 _ hone hone' hslashes t {}
      (ignoresPath_of_all hall)⟩

/-- Behind an escaped slash a plain one is dropped alone, and the other way round. -/
theorem keeps_of_two_slashes :
    Relation.EqvGen AddsSlash "/posts/7".toList "/posts/7/%2F".toList ∧
      normalizePath "/posts/7/%2F" = "/posts/7/" ∧
      normalizePath (normalizePath "/posts/7/%2F") ≠ normalizePath "/posts/7/%2F" ∧
      normalizePath "/posts/7%2F/" = "/posts/7%2F" ∧
      ∃ t, Table.draw singlePosts {} = .ok t ∧ t.IgnoresPath ∧
        (∃ m, (t.recognize { path := "/posts/7" } ()).1 = .ok (.matched m)) ∧
        (t.recognize { path := "/posts/7/%2F" } ()).1 = .ok .noMatch := by
  have hslashes : Relation.EqvGen AddsSlash "/posts/7".toList "/posts/7/%2F".toList :=
    (Relation.EqvGen.rel _ _ (.final _)).trans _ _ _ (.rel _ _ (.escaped _ (.inl rfl)))
  have hdrawn : (Table.draw singlePosts {}).toOption.any (fun t =>
      (t.routes.all fun r => r.constraints.all fun c => !c.constraint.isPredicate) &&
        (t.recognize { path := "/posts/7" } ()).1.toOption.any (·.match?.isSome) &&
        (t.recognize { path := "/posts/7/%2F" } ()).1.toOption.any fun found =>
          found.match?.isNone && found.allowed?.isNone) = true := by
    decide +kernel
  obtain ⟨t, ht, hall⟩ := exists_ok_of_any hdrawn
  simp only [Bool.and_eq_true] at hall
  obtain ⟨⟨hignores, hfound⟩, hnone⟩ := hall
  obtain ⟨found, hfound, hsome⟩ := exists_ok_of_any hfound
  obtain ⟨m, hm⟩ := Option.isSome_iff_exists.1 hsome
  obtain ⟨none, hnone, hno⟩ := exists_ok_of_any hnone
  refine ⟨hslashes, by decide +kernel, by decide +kernel, by decide +kernel, t, ht,
    ignoresPath_of_all hignores, ⟨m, ?_⟩, ?_⟩
  · rw [hfound, Recognition.match?_eq_some.1 hm]
  · rw [hnone]
    cases none with
    | noMatch => rfl
    | matched _ => cases hno
    | pathOnly _ => cases hno

end Table

end RouteEngine
