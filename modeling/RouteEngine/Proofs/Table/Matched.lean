import RouteEngine.Table.Recognition

/-!
Where matches come from. A route that accepts gives a match of its own, with its defaults under
what its pattern captured (`Route.captured_of_attempt`). The answer of a recognition and every one
of the candidates were made in this way by a route of the table, in whatever state the routes
before it left: one lemma for each of the two loops, by induction over the routes that are tried.
-/

namespace RouteEngine

variable {σ : Type} {tldLength : UInt64} {request : Request} {path : String} {s s' : σ}
  {m : RouteMatch σ}

namespace Table

/-- The match was made by one of the routes, in some state. -/
def MadeBy (tldLength : UInt64) (request : Request) (path : String) (rs : List (Route σ))
    (m : RouteMatch σ) : Prop :=
  ∃ r ∈ rs, ∃ s s', r.attempt tldLength request path s = (.accepted m, s')

theorem MadeBy.cons {rs : List (Route σ)} (h : MadeBy tldLength request path rs m)
    (r : Route σ) : MadeBy tldLength request path (r :: rs) m := by
  obtain ⟨r', hr', hmade⟩ := h
  exact ⟨r', List.mem_cons_of_mem r hr', hmade⟩

theorem madeBy_of_recognizeFrom {rs : List (Route σ)} {allowed : List Method} {found : Bool}
    (h : recognizeFrom tldLength request path rs allowed found s = (.matched m, s')) :
    MadeBy tldLength request path rs m := by
  induction rs generalizing allowed found s with
  | nil =>
      rw [recognizeFrom] at h
      split at h <;> cases h
  | cons r rs ih =>
      rw [recognizeFrom] at h
      split at h
      · next m' s₁ hattempt =>
          cases h
          exact ⟨r, List.mem_cons_self, s, s', hattempt⟩
      · exact (ih h).cons r
      · exact (ih h).cons r
      · exact (ih h).cons r

theorem madeBy_of_mem_acceptingFrom {rs : List (Route σ)}
    (h : m ∈ (acceptingFrom tldLength request path rs s).1) :
    MadeBy tldLength request path rs m := by
  induction rs generalizing s with
  | nil => cases h
  | cons r rs ih =>
      rw [acceptingFrom] at h
      split at h
      · next m' s₁ hattempt =>
          rcases List.mem_cons.1 h with rfl | h
          · exact ⟨r, List.mem_cons_self, s, s₁, hattempt⟩
          · exact (ih h).cons r
      · exact (ih h).cons r

/-- The table gives the match for a request: as its answer, or as one of the candidates. -/
def Gives (t : Table σ) (request : Request) (m : RouteMatch σ) : Prop :=
  ∃ s, (t.recognize request s).1 = .ok (.matched m) ∨
    ∃ ms, (t.accepting request s).1 = .ok ms ∧ m ∈ ms

theorem madeBy_of_gives {t : Table σ} (h : t.Gives request m) :
    ∃ path, checkedPath request = .ok path ∧ MadeBy t.tldLength request path t.routes m := by
  obtain ⟨s, h | ⟨ms, h, hm⟩⟩ := h
  · rw [recognize] at h
    split at h
    · cases h
    · next path hpath =>
        have hrun : (recognizeFrom t.tldLength request path t.routes [] false s).1 = .matched m :=
          Except.ok.inj h
        exact ⟨path, hpath, madeBy_of_recognizeFrom (Prod.ext hrun rfl)⟩
  · rw [accepting] at h
    split at h
    · cases h
    · next path hpath =>
        have hrun : (acceptingFrom t.tldLength request path t.routes s).1 = ms := Except.ok.inj h
        exact ⟨path, hpath, madeBy_of_mem_acceptingFrom (hrun ▸ hm)⟩

end Table

end RouteEngine
