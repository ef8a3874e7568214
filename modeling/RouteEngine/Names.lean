/-!
Lists of names: each once in the order of its first appearance, or each once in ascending order.
-/

namespace RouteEngine.Names

/-- Keeps the first of each name. -/
def distinct : List String → List String
  | [] => []
  | n :: ns => n :: (distinct ns).filter fun m => m ≠ n

/-- Puts a name into an ascending list unless it is there. -/
def insert (n : String) : List String → List String
  | [] => [n]
  | m :: ms => if n < m then n :: m :: ms else if n = m then m :: ms else m :: insert n ms

/-- The names in ascending order, each once. -/
def ascending (ns : List String) : List String := ns.foldr insert []

theorem mem_distinct {n : String} {ns : List String} : n ∈ distinct ns ↔ n ∈ ns := by
  induction ns with
  | nil => simp [distinct]
  | cons m ms ih =>
    by_cases h : n = m <;> simp [distinct, h, ih]

theorem nodup_distinct (ns : List String) : (distinct ns).Nodup := by
  induction ns with
  | nil => exact .nil
  | cons m ms ih => exact List.nodup_cons.2 ⟨by simp, ih.filter _⟩

theorem distinct_concat (ns : List String) (n : String) :
    distinct (ns ++ [n]) = if n ∈ ns then distinct ns else distinct ns ++ [n] := by
  induction ns with
  | nil => rfl
  | cons m ms ih =>
    rw [List.cons_append, distinct, ih, distinct]
    by_cases hm : n = m
    · subst hm
      split <;> simp
    · simp only [List.mem_cons, hm, false_or]
      split <;> simp [hm]

theorem mem_insert {n m : String} {ms : List String} : n ∈ insert m ms ↔ n = m ∨ n ∈ ms := by
  induction ms with
  | nil => simp [insert]
  | cons k ks ih =>
    simp only [insert]
    split
    · simp
    · split
      · next h => simp [h]
      · simp [ih, or_left_comm]

theorem mem_ascending {n : String} {ns : List String} : n ∈ ascending ns ↔ n ∈ ns := by
  induction ns with
  | nil => simp [ascending]
  | cons m ms ih =>
    change n ∈ insert m (ascending ms) ↔ _
    simp [mem_insert, ih]

end RouteEngine.Names
