import RouteEngine.Json.Basic
import RouteEngine.Proofs.Dict

/-!
What stands where in a JSON value. A path of keys leads through objects only, so that a value is
looked up one key at a time (`at?_cons`). Objects whose keys are ascending have each key once, and
taking a value to its canonical form makes all of them so (`sorted_canonical`).
-/

namespace RouteEngine.Json

/-- What stands at a path of keys. -/
def at? : List String → Json → Option Json
  | [], j => some j
  | key :: path, .object fields => (Dict.lookup key fields).bind (at? path)
  | _ :: _, _ => none

def IsObject (j : Json) : Prop := ∃ fields, j = .object fields

/-- The keys of every object that a path leads to are ascending. -/
def Sorted (j : Json) : Prop :=
  ∀ path fields, j.at? path = some (.object fields) → fields.Pairwise fun a b => a.1 < b.1

variable {α : Type} {j v : Json} {key : String} {path : List String}
  {fields : List (String × Json)}

@[simp] theorem at?_nil (j : Json) : j.at? [] = some j := by
  cases j <;> rfl

theorem at?_object (key : String) (path : List String) (fields : List (String × Json)) :
    (object fields).at? (key :: path) = (Dict.lookup key fields).bind (at? path) := rfl

@[simp] theorem at?_field (key : String) (fields : List (String × Json)) :
    (object fields).at? [key] = Dict.lookup key fields := by
  rw [at?_object]
  cases Dict.lookup key fields <;> simp

theorem at?_of_not_isObject (h : ¬ j.IsObject) (key : String) (path : List String) :
    j.at? (key :: path) = none := by
  cases j with
  | object fields => exact absurd ⟨fields, rfl⟩ h
  | _ => rfl

theorem at?_cons (j : Json) (key : String) (path : List String) :
    j.at? (key :: path) = (j.at? [key]).bind (at? path) := by
  by_cases h : j.IsObject
  · obtain ⟨fields, rfl⟩ := h
    rw [at?_field, at?_object]
  · rw [at?_of_not_isObject h, at?_of_not_isObject h, Option.bind_none]

/-! ### Fields -/

theorem lookup_eq_none {l : List (String × α)} :
    Dict.lookup key l = none ↔ key ∉ l.map (·.1) := by
  rw [Dict.lookup_eq_none, List.mem_map, not_exists]
  exact forall_congr' fun e => not_and.symm

/-- Objects that lack the field agree about it. -/
theorem at?_eq_of_not_mem {fields' : List (String × Json)} (h : key ∉ fields.map (·.1))
    (h' : key ∉ fields'.map (·.1)) : (object fields).at? [key] = (object fields').at? [key] := by
  rw [at?_field, at?_field, lookup_eq_none.2 h, lookup_eq_none.2 h']

/-- Induction into the fields of objects, and not into lists. -/
theorem fields_induction {P : Json → Prop} (plain : ∀ j : Json, ¬ j.IsObject → P j)
    (object : ∀ fields, (∀ e ∈ fields, P e.2) → P (.object fields)) (j : Json) : P j := by
  induction hn : sizeOf j using Nat.strongRecOn generalizing j with
  | ind n ih =>
      by_cases h : j.IsObject
      · obtain ⟨fields, rfl⟩ := h
        refine object fields fun e he => ih (sizeOf e.2) ?_ e.2 rfl
        obtain ⟨k, v⟩ := e
        have hsize := List.sizeOf_lt_of_mem he
        simp only [Prod.mk.sizeOf_spec, Json.object.sizeOf_spec] at hsize hn ⊢
        omega
      · exact plain j h

/-! ### Ascending keys -/

theorem Sorted.keys (h : (object fields).Sorted) : fields.Pairwise fun a b => a.1 < b.1 :=
  h [] fields rfl

theorem Sorted.field (h : (object fields).Sorted) (hv : Dict.lookup key fields = some v) : v.Sorted := by
  intro path inner hinner
  refine h (key :: path) inner ?_
  rw [at?_object, hv, Option.bind_some, hinner]

theorem Sorted.mem (h : (object fields).Sorted) {e : String × Json} (he : e ∈ fields) :
    e.2.Sorted := by
  have hfield : Dict.lookup e.1 fields = some e.2 := by
    rw [Dict.lookup_eq_some h.keys]
    exact he
  exact h.field hfield

theorem sorted_of_not_isObject (h : ¬ j.IsObject) : j.Sorted := by
  rintro (_ | ⟨key, path⟩) fields hfields
  · rw [at?_nil, Option.some.injEq] at hfields
    exact absurd ⟨fields, hfields⟩ h
  · rw [at?_of_not_isObject h] at hfields
    cases hfields

theorem sorted_object (hkeys : fields.Pairwise fun a b => a.1 < b.1)
    (hfields : ∀ key v, Dict.lookup key fields = some v → v.Sorted) : (object fields).Sorted := by
  rintro (_ | ⟨key, path⟩) inner hinner
  · rw [at?_nil, Option.some.injEq, object.injEq] at hinner
    exact hinner ▸ hkeys
  · rw [at?_object, Option.bind_eq_some_iff] at hinner
    obtain ⟨v, hv, hinner⟩ := hinner
    exact hfields key v hv path inner hinner

/-! ### The canonical form -/

theorem sortFields_spec (l : List (String × α)) :
    (sortFields l).Pairwise (fun a b => a.1 < b.1) ∧ ∀ e ∈ sortFields l, e ∈ l := by
  have hstep : ∀ acc : List (String × α), acc.Pairwise (fun a b => a.1 < b.1) →
      (l.foldl (fun acc f => Dict.insertEntry f.1 f.2 acc) acc).Pairwise (fun a b => a.1 < b.1) ∧
        ∀ e ∈ l.foldl (fun acc f => Dict.insertEntry f.1 f.2 acc) acc, e ∈ acc ∨ e ∈ l := by
    induction l with
    | nil => exact fun acc hacc => ⟨hacc, fun e he => .inl he⟩
    | cons f l ih =>
        intro acc hacc
        rw [List.foldl_cons]
        obtain ⟨hsorted, hmem⟩ := ih _ (Dict.sorted_insertEntry f.1 f.2 hacc)
        refine ⟨hsorted, fun e he => ?_⟩
        rcases hmem e he with he | he
        · rcases Dict.mem_insertEntry he with rfl | he
          · exact .inr List.mem_cons_self
          · exact .inl he
        · exact .inr (List.mem_cons_of_mem f he)
  obtain ⟨hsorted, hmem⟩ := hstep [] .nil
  exact ⟨hsorted, fun e he => (hmem e he).resolve_left List.not_mem_nil⟩

theorem mem_canonicalFields {e : String × Json} (h : e ∈ canonicalFields fields) :
    ∃ v, (e.1, v) ∈ fields ∧ e.2 = v.canonical := by
  induction fields with
  | nil => simp [canonicalFields] at h
  | cons f fields ih =>
      obtain ⟨k, v⟩ := f
      rw [canonicalFields, List.mem_cons] at h
      rcases h with rfl | h
      · exact ⟨v, List.mem_cons_self, rfl⟩
      · obtain ⟨w, hw, heq⟩ := ih h
        exact ⟨w, List.mem_cons_of_mem _ hw, heq⟩

theorem isObject_of_canonical (h : j.canonical.IsObject) : j.IsObject := by
  obtain ⟨fields, h⟩ := h
  cases j with
  | object fields => exact ⟨fields, rfl⟩
  | _ => simp [canonical] at h

theorem sorted_canonical (j : Json) : j.canonical.Sorted := by
  induction j using fields_induction with
  | plain j h => exact sorted_of_not_isObject (mt isObject_of_canonical h)
  | object fields ih =>
      rw [canonical]
      obtain ⟨hsorted, hmem⟩ := sortFields_spec (canonicalFields fields)
      refine sorted_object hsorted fun key v hv => ?_
      obtain ⟨w, hw, rfl⟩ := mem_canonicalFields (hmem _ (Dict.mem_of_lookup hv))
      exact ih _ hw

end RouteEngine.Json
