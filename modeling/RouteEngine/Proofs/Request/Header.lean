import RouteEngine.Request.Header

/-!
What is found among header fields after one has been set: the value that was set, and for every
other name what was found before.
-/

namespace RouteEngine.Headers

/-- A field that has been set is the one that is found. -/
theorem get?_set_self (h : Headers) {name field : String} (hname : lowerAscii name = field)
    (value : String) : (h.set field value).get? name = some value := by
  have hnone : (h.fields.filter fun f => f.1 ≠ field).find? (fun f => f.1 = field) = none := by
    simp
  rw [get?, hname, set, List.find?_append, hnone]
  simp

/-- A field of another name is found as before. -/
theorem get?_set_of_ne (h : Headers) {name field : String} (hname : lowerAscii name ≠ field)
    (value : String) : (h.set field value).get? name = h.get? name := by
  have hsame : (h.fields.filter fun f => f.1 ≠ field).find? (fun f => f.1 = lowerAscii name) =
      h.fields.find? fun f => f.1 = lowerAscii name := by
    rw [List.find?_filter]
    congr 1
    funext f
    by_cases hf : f.1 = lowerAscii name <;> simp [hf, hname]
  have hset : [(field, value)].find? (fun f => f.1 = lowerAscii name) = none := by
    simp [Ne.symm hname]
  rw [get?, get?, set, List.find?_append, hset, Option.or_none, hsame]

theorem name?_eq_some {name field : String} (h : name? name = some field) :
    lowerAscii name = field := by
  simp only [name?] at h
  split at h
  · cases h
  · exact Option.some.inj h

theorem get?_setValid {name value : String} (h : Headers) (hname : (name? name).isSome = true)
    (hvalue : isValue value = true) : (h.setValid name value).get? name = some value := by
  obtain ⟨field, hfield⟩ := Option.isSome_iff_exists.1 hname
  simp only [setValid, hfield, hvalue, if_true]
  exact h.get?_set_self (name?_eq_some hfield) value

end RouteEngine.Headers
