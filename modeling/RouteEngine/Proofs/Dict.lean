import RouteEngine.Dict

/-!
Dictionaries through their look-ups. A dictionary is determined by what its keys lead to, because
the order of its entries is; the operations are then described by one look-up equation each.
-/

namespace RouteEngine.Dict

variable {α : Type}

theorem lookup_eq_some {k : String} {v : α} {l : List (String × α)}
    (hl : l.Pairwise fun a b => a.1 < b.1) : lookup k l = some v ↔ (k, v) ∈ l := by
  induction l with
  | nil => simp [lookup]
  | cons e l ih =>
      obtain ⟨x, w⟩ := e
      obtain ⟨hx, hl⟩ := List.pairwise_cons.1 hl
      rw [lookup, List.mem_cons]
      by_cases hk : x = k
      · subst hk
        have hnot : (x, v) ∉ l := fun hmem => String.lt_irrefl x (hx _ hmem)
        simp [hnot, eq_comm]
      · rw [if_neg hk, ih hl]
        simp [Ne.symm hk]

theorem mem_of_lookup {k : String} {v : α} {l : List (String × α)} (h : lookup k l = some v) :
    (k, v) ∈ l := by
  induction l with
  | nil => simp [lookup] at h
  | cons e l ih =>
      obtain ⟨x, w⟩ := e
      rw [lookup] at h
      split at h
      · next hk =>
          cases h
          rw [hk]
          exact List.mem_cons_self
      · exact List.mem_cons_of_mem _ (ih h)

theorem lookup_append (k : String) (l m : List (String × α)) :
    lookup k (l ++ m) = (lookup k l).or (lookup k m) := by
  induction l with
  | nil => rfl
  | cons e l ih =>
      obtain ⟨x, v⟩ := e
      rw [List.cons_append, lookup, lookup, ih]
      split <;> rfl

theorem lookup_eq_none {k : String} {l : List (String × α)} :
    lookup k l = none ↔ ∀ e ∈ l, e.1 ≠ k := by
  induction l with
  | nil => simp [lookup]
  | cons e l ih =>
      obtain ⟨x, v⟩ := e
      rw [lookup, List.forall_mem_cons, ← ih]
      split <;> simp_all

theorem lookup_filter {k : String} {l : List (String × α)} {p : String × α → Bool}
    (hp : ∀ v, p (k, v) = true) :
    lookup k (l.filter p) = lookup k l := by
  induction l with
  | nil => rfl
  | cons e l ih =>
      obtain ⟨x, v⟩ := e
      rw [List.filter_cons, lookup]
      by_cases hk : x = k
      · subst hk
        rw [if_pos (hp v), lookup, if_pos rfl, if_pos rfl]
      · split
        · rw [lookup, if_neg hk, ih]
        · exact ih

/-- Where each key has one entry only, the order of the entries does not matter. -/
theorem lookup_reverse {k : String} {l : List (String × α)}
    (hl : l.Pairwise fun a b => a.1 ≠ b.1) : lookup k l.reverse = lookup k l := by
  induction l with
  | nil => rfl
  | cons e l ih =>
      obtain ⟨x, v⟩ := e
      obtain ⟨hx, hl⟩ := List.pairwise_cons.1 hl
      rw [List.reverse_cons, lookup_append, ih hl, lookup, lookup, lookup]
      split
      · next hk =>
          subst hk
          rw [lookup_eq_none.2 fun e he => (hx e he).symm]
          rfl
      · exact Option.or_none

theorem distinct_entries (d : Dict α) : d.entries.Pairwise fun a b => a.1 ≠ b.1 := by
  refine d.sorted.imp ?_
  intro a b hlt heq
  exact String.lt_irrefl b.1 (heq ▸ hlt)

theorem get?_eq_some {d : Dict α} {k : String} {v : α} : d.get? k = some v ↔ (k, v) ∈ d.entries :=
  lookup_eq_some d.sorted

theorem mem_keys {d : Dict α} {k : String} : k ∈ d.keys ↔ d.contains k = true := by
  rw [contains, Option.isSome_iff_exists, keys, List.mem_map]
  constructor
  · rintro ⟨⟨x, v⟩, hmem, rfl⟩
    exact ⟨v, get?_eq_some.2 hmem⟩
  · rintro ⟨v, hv⟩
    exact ⟨(k, v), get?_eq_some.1 hv, rfl⟩

theorem nodup_of_sorted {l : List (String × α)} (hl : l.Pairwise fun a b => a.1 < b.1) :
    l.Nodup := by
  refine hl.imp ?_
  rintro a b hlt rfl
  exact String.lt_irrefl a.1 hlt

theorem entries_eq_of_lookup {l m : List (String × α)} (hl : l.Pairwise fun a b => a.1 < b.1)
    (hm : m.Pairwise fun a b => a.1 < b.1) (h : ∀ k, lookup k l = lookup k m) : l = m := by
  have hmem : ∀ e, e ∈ l ↔ e ∈ m := by
    intro ⟨k, v⟩
    rw [← lookup_eq_some hl, ← lookup_eq_some hm, h k]
  have hperm : l.Perm m :=
    (List.perm_ext_iff_of_nodup (nodup_of_sorted hl) (nodup_of_sorted hm)).2 hmem
  -- Sorted lists that are permutations of each other are equal, since the order is strict.
  refine hperm.eq_of_pairwise (fun a b _ _ hab hba => ?_) hl hm
  exact absurd (String.lt_trans hab hba) (String.lt_irrefl _)

/-- Dictionaries that lead every key to the same value are equal. -/
theorem ext_get? {d e : Dict α} (h : ∀ k, d.get? k = e.get? k) : d = e :=
  ext_entries (entries_eq_of_lookup d.sorted e.sorted h)

/-! ### Operations -/

theorem get?_filter (d : Dict α) (p : String → α → Bool) (k : String) :
    (d.filter p).get? k = (d.get? k).filter (p k) := by
  rw [Option.ext_iff]
  intro v
  simp only [get?_eq_some, filter, List.mem_filter, Option.filter_eq_some_iff]

/-- Of several entries with one key the last stands. -/
theorem get?_insertAll (d : Dict α) (entries : List (String × α)) (k : String) :
    (d.insertAll entries).get? k = (lookup k entries.reverse).or (d.get? k) := by
  induction entries generalizing d with
  | nil => rfl
  | cons e entries ih =>
      obtain ⟨x, v⟩ := e
      change ((d.insert x v).insertAll entries).get? k = _
      rw [ih, get?_insert, List.reverse_cons, lookup_append, Option.or_assoc, lookup, lookup]
      split <;> rfl

theorem contains_insertAll {d : Dict α} {k : String} (hk : d.contains k = true)
    (entries : List (String × α)) : (d.insertAll entries).contains k = true := by
  induction entries generalizing d with
  | nil => exact hk
  | cons e entries ih =>
      refine ih ?_
      rw [contains, get?_insert]
      split
      · rfl
      · exact hk

theorem mem_of_get?_ofList {entries : List (String × α)} {k : String} {v : α}
    (h : (ofList entries).get? k = some v) : (k, v) ∈ entries := by
  rw [ofList, get?_insertAll, get?_empty, Option.or_none] at h
  exact List.mem_reverse.1 (mem_of_lookup h)

theorem contains_ofList {entries : List (String × α)} {k : String} :
    (ofList entries).contains k = true ↔ k ∈ entries.map (·.1) := by
  constructor
  · intro h
    obtain ⟨v, hv⟩ := Option.isSome_iff_exists.1 h
    exact List.mem_map_of_mem (mem_of_get?_ofList hv)
  · intro h
    obtain ⟨e, he, rfl⟩ := List.mem_map.1 h
    rw [contains, Option.isSome_iff_ne_none, ofList, get?_insertAll, get?_empty, Option.or_none]
    exact fun hnone => lookup_eq_none.1 hnone e (List.mem_reverse.2 he) rfl

theorem ofList_eq_empty {entries : List (String × α)} (h : ofList entries = empty) :
    entries = [] := by
  cases entries with
  | nil => rfl
  | cons e entries =>
      have hfirst : (empty.insert e.1 e.2).contains e.1 = true := by simp [contains]
      have hcontains : (ofList (e :: entries)).contains e.1 = true :=
        contains_insertAll hfirst entries
      rw [h] at hcontains
      exact absurd hcontains Bool.false_ne_true

@[simp] theorem get?_override (d upper : Dict α) (k : String) :
    (d.override upper).get? k = (upper.get? k).or (d.get? k) := by
  rw [override, get?_insertAll, lookup_reverse upper.distinct_entries]
  rfl

@[simp] theorem get?_orElse (d under : Dict α) (k : String) :
    (d.orElse under).get? k = (d.get? k).or (under.get? k) :=
  get?_override under d k

end RouteEngine.Dict
