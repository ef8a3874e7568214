import RouteEngine.Proofs.Request.Labels
import RouteEngine.Table.Checked

/-!
Recognition with checked sums against recognition without. The two give the same answer and leave
the same state (`Table.recognizeChecked_cases`), unless the length of host endings is the greatest
there is, the host is no address, and a route that takes the path and the method of the request
has a constraint on the subdomain.
-/

namespace RouteEngine

variable {σ : Type} {tldLength : UInt64} {request : Request} {path message : String} {s s' : σ}

/-- No subdomain can be computed. -/
def Request.Overflows (request : Request) (tldLength : UInt64) : Prop :=
  request.hostIsAddress = false ∧ tldLength.toNat = Text.maxCount

theorem Request.overflows_of_panic? (h : (request.subdomain tldLength).panic? = some message) :
    message = Word.overflow ∧ request.Overflows tldLength := by
  rw [subdomain_eq] at h
  split at h
  · cases h
  · next hneither =>
      rw [not_or, Bool.not_eq_true] at hneither
      obtain rfl := Option.some.inj h
      exact ⟨rfl, hneither.1,
        Nat.le_antisymm (Word.toNat_le_maxCount tldLength) (Nat.le_of_not_lt hneither.2)⟩

theorem BoundConstraint.target_of_panic? {b : BoundConstraint σ}
    (h : b.panic? tldLength request = some message) :
    b.target = .request .subdomain ∧ message = Word.overflow ∧ request.Overflows tldLength := by
  unfold BoundConstraint.panic? at h
  split at h
  · next a htarget =>
      cases a with
      | subdomain => exact ⟨htarget, Request.overflows_of_panic? h⟩
      | _ => cases h
  · cases h

namespace Route

theorem mem_of_firstPanic? {params : Params} {cs : List (BoundConstraint σ)}
    (h : firstPanic? tldLength params request cs s = some (message, s')) :
    message = Word.overflow ∧ request.Overflows tldLength ∧
      ∃ c ∈ cs, c.target = .request .subdomain := by
  induction cs generalizing s with
  | nil => cases h
  | cons c cs ih =>
      rw [firstPanic?] at h
      split at h
      · next hpanic =>
          obtain ⟨rfl, rfl⟩ := Prod.mk.inj (Option.some.inj h)
          obtain ⟨htarget, hmessage, hoverflows⟩ := BoundConstraint.target_of_panic? hpanic
          exact ⟨hmessage, hoverflows, c, List.mem_cons_self, htarget⟩
      · split at h
        · obtain ⟨hmessage, hoverflows, d, hd, htarget⟩ := ih h
          exact ⟨hmessage, hoverflows, d, List.mem_cons_of_mem c hd, htarget⟩
        · cases h

/-- The route takes the path and the method, and asks for the subdomain. -/
def AsksSubdomain (r : Route σ) (request : Request) (path : String) : Prop :=
  (r.pattern.matchPath path).isSome = true ∧ r.verbs.accepts request.method = true ∧
    ∃ c ∈ r.constraints, c.target = .request .subdomain

theorem asksSubdomain_of_panic? {r : Route σ}
    (h : r.panic? tldLength request path s = some (message, s')) :
    message = Word.overflow ∧ request.Overflows tldLength ∧ r.AsksSubdomain request path := by
  unfold Route.panic? at h
  split at h
  · cases h
  · next captured hcaptured =>
      split at h
      · next hverbs =>
          obtain ⟨hmessage, hoverflows, hasks⟩ := mem_of_firstPanic? h
          exact ⟨hmessage, hoverflows, by rw [hcaptured]; rfl, hverbs, hasks⟩
      · cases h

end Route

namespace Table

theorem asksSubdomain_of_panicFrom? {rs : List (Route σ)}
    (h : panicFrom? tldLength request path rs s = some (message, s')) :
    message = Word.overflow ∧ request.Overflows tldLength ∧
      ∃ r ∈ rs, r.AsksSubdomain request path := by
  induction rs generalizing s with
  | nil => cases h
  | cons r rs ih =>
      rw [panicFrom?] at h
      split at h
      · next panic hpanic =>
          obtain rfl := Option.some.inj h
          obtain ⟨hmessage, hoverflows, hasks⟩ := Route.asksSubdomain_of_panic? hpanic
          exact ⟨hmessage, hoverflows, r, List.mem_cons_self, hasks⟩
      · split at h
        · cases h
        · obtain ⟨hmessage, hoverflows, q, hq, hasks⟩ := ih h
          exact ⟨hmessage, hoverflows, q, List.mem_cons_of_mem r hq, hasks⟩

theorem recognizeChecked_cases (t : Table σ) (request : Request) (s : σ) :
    t.recognizeChecked request s =
        (.returned (t.recognize request s).1, (t.recognize request s).2) ∨
      request.Overflows t.tldLength ∧
        ∃ path s', checkedPath request = .ok path ∧
          (∃ r ∈ t.routes, r.AsksSubdomain request path) ∧
          t.recognizeChecked request s = (.panicked Word.overflow, s') := by
  cases hpanic : t.panic? request s with
  | none =>
      left
      simp only [recognizeChecked, hpanic]
  | some panic =>
      obtain ⟨message, s'⟩ := panic
      right
      simp only [recognizeChecked, hpanic]
      unfold Table.panic? at hpanic
      split at hpanic
      · cases hpanic
      · next path hpath =>
          obtain ⟨rfl, hoverflows, hasks⟩ := asksSubdomain_of_panicFrom? hpanic
          exact ⟨hoverflows, path, s', hpath, hasks, rfl⟩

end Table

end RouteEngine
